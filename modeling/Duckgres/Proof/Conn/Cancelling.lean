import Duckgres.Conn.Cancellation

/-!
# Cancel requests reach what is running

The registry has one entry for a connection, while its cursors and its statements have a context each. As long as they
do not overlap, and nothing runs without a context when a request comes, a request cancels what it is for.
-/

namespace Duckgres.Cancellation
open Base Option Function

variable {ι : Type} {s next : Server ι} {event : Event ι} {i : ι}

def Client.contextOf (client : Client) : Operation → Option Context
  | .statement context => some context
  | .fetch name _ => client.cursors name
  | .plain => none

structure Fair (s : Server ι) (event : Event ι) (next : Server ι) : Prop where
  hits : ∀ key, event = .cancelRequest key → ∀ i operation, (s.clients i).key = key →
    (s.clients i).running = some operation → ∃ context, (s.clients i).contextOf operation = some context ∧
      context ∈ next.cancelled
  -- and only contexts that are in use, on that connection alone
  aims : ∀ context ∈ next.cancelled, context ∉ s.cancelled → ∃ key i, event = .cancelRequest key ∧
    (s.clients i).key = key ∧ (s.clients i).Live context ∧ ∀ j, (s.clients j).Live context → j = i
  starts : ∀ i context, (next.clients i).Live context → ¬ (s.clients i).Live context → context ∉ next.cancelled
  -- whatever ends, what goes on stays registered
  keeps : ∀ i context, (next.clients i).Live context → next.activeQueries (next.clients i).key = some context

/-- The event comes while no other context of its connection is in use, and a request while nothing runs without one. -/
def Orderly (s : Server ι) : Event ι → Prop
  | .beginStatement i => (∀ name, (s.clients i).cursors name = none) ∧ (s.clients i).cancelCh ≠ some true
  | .beginFetch i name => (∀ other, other ≠ name → (s.clients i).cursors other = none) ∧
      ((s.clients i).cursors name = none → (s.clients i).cancelCh ≠ some true)
  | .cancelRequest key => ∀ i, (s.clients i).key = key → (s.clients i).running ≠ some .plain
  | _ => True

structure ClientInv (client : Client) (registered : Option Context) (bound : Context) : Prop where
  registered : ∀ context, registered = some context ↔ client.Live context
  sole : ∀ name name', client.cursors name ≠ none → client.cursors name' ≠ none → name = name'
  apart : ∀ context, client.running = some (.statement context) → ∀ name, client.cursors name = none
  fetching : ∀ name opens, client.running = some (.fetch name opens) → client.cursors name ≠ none
  below : ∀ context, client.Live context → context < bound

structure Inv (s : Server ι) : Prop where
  keys : Function.Injective fun i => (s.clients i).key
  clients : ∀ i, ClientInv (s.clients i) (s.activeQueries (s.clients i).key) s.nextContext
  owned : ∀ i j context, (s.clients i).Live context → (s.clients j).Live context → i = j
  cancelled : ∀ context ∈ s.cancelled, context < s.nextContext

theorem Fresh.inv (fresh : Fresh s) : Inv s := by
  have dead (i : ι) (context : Context) : ¬ (s.clients i).Live context := by
    simp [Client.Live, fresh.idle, fresh.noCursor]
  exact {
    keys := fresh.keys
    clients := fun i => {
      registered := fun context => by simp [fresh.unregistered, dead]
      sole := fun name _ ho => absurd (fresh.noCursor i name) ho
      apart := fun _ _ => fresh.noCursor i
      fetching := fun name opens executing => by simp [fresh.idle] at executing
      below := fun context live => (dead i context live).elim }
    owned := fun i _ context live => (dead i context live).elim
    cancelled := fun context hf => by simp [fresh.notCancelled] at hf }

theorem closed_cursors (inv : Inv s) {name} (ho : (s.clients i).cursors name ≠ none) (other : Text) :
    Function.update (s.clients i).cursors name none other = none := by
  by_cases isName : other = name
  · simp [isName]
  · rw [update_of_ne isName]
    by_contra alsoOpened
    exact isName ((inv.clients i).sole other name alsoOpened ho)

structure Changes (i : ι) (s next : Server ι) : Prop where
  others : ∀ j, j ≠ i → next.clients j = s.clients j
  key : (next.clients i).key = (s.clients i).key
  registry : ∀ key, key ≠ (s.clients i).key → next.activeQueries key = s.activeQueries key
  cancelled : next.cancelled = s.cancelled
  bound : s.nextContext ≤ next.nextContext
  fresh : ∀ context, (next.clients i).Live context → (s.clients i).Live context ∨ s.nextContext ≤ context
  sound : ClientInv (next.clients i) (next.activeQueries (next.clients i).key) next.nextContext

variable {client : Client} {registered : Option Context}

theorem ClientInv.mono {bound wider}
    (inv : ClientInv client registered bound) (le : bound ≤ wider) : ClientInv client registered wider :=
  { inv with below := fun context live => lt_of_lt_of_le (inv.below context live) le }

theorem Changes.inv (changes : Changes i s next) (inv : Inv s) : Inv next where
  keys := by
    have hs (j : ι) : (next.clients j).key = (s.clients j).key := by
      by_cases isI : j = i
      · rw [isI, changes.key]
      · rw [changes.others j isI]
    intro j k keys
    exact inv.keys (by simpa [hs] using keys)
  clients j := by
    by_cases isI : j = i
    · rw [isI]
      exact changes.sound
    · have other : (s.clients j).key ≠ (s.clients i).key := fun hs => isI (inv.keys hs)
      rw [changes.others j isI, changes.registry _ other]
      exact (inv.clients j).mono changes.bound
  owned j k context := by
    -- a new context is above those of the other connections
    have stale (j : ι) (other : j ≠ i) (live : (next.clients j).Live context) (mine : (next.clients i).Live context) :
        False := by
      rw [changes.others j other] at live
      rcases changes.fresh context mine with old | new
      · exact other (inv.owned j i context live old)
      · exact absurd ((inv.clients j).below context live) (not_lt.mpr new)
    intro first second
    by_cases isI : j = i
    · by_cases isI' : k = i
      · rw [isI, isI']
      · exact (stale k isI' second (isI ▸ first)).elim
    by_cases isI' : k = i
    · exact (stale j isI first (isI' ▸ second)).elim
    · rw [changes.others j isI] at first
      rw [changes.others k isI'] at second
      exact inv.owned j k context first second
  cancelled context hf := lt_of_lt_of_le (inv.cancelled context (changes.cancelled ▸ hf)) changes.bound

theorem Changes.fair (changes : Changes i s next) (inv : Inv s) (other : ∀ key, event ≠ .cancelRequest key) :
    Fair s event next where
  hits key isRequest := absurd isRequest (other key)
  aims _ hf new := absurd (changes.cancelled ▸ hf) new
  starts j context live new hf := by
    rw [changes.cancelled] at hf
    by_cases isI : j = i
    · rw [isI] at live new
      rcases changes.fresh context live with old | above
      · exact new old
      · exact absurd (inv.cancelled context hf) (not_lt.mpr above)
    · rw [changes.others j isI] at live
      exact new live
  keeps j context live := (((changes.inv inv).clients j).registered context).mpr live

section
variable (s : Server ι) (key : BackendKey)

theorem cancelRequest_key (i : ι) : ((s.cancelRequest key).clients i).key = (s.clients i).key := by
  by_cases isKey : (s.clients i).key = key <;> simp [Server.cancelRequest, isKey]

theorem cancelRequest_running (i : ι) : ((s.cancelRequest key).clients i).running = (s.clients i).running := by
  by_cases isKey : (s.clients i).key = key <;> simp [Server.cancelRequest, isKey]

theorem cancelRequest_cursors (i : ι) : ((s.cancelRequest key).clients i).cursors = (s.clients i).cursors := by
  by_cases isKey : (s.clients i).key = key <;> simp [Server.cancelRequest, isKey]

theorem cancelRequest_live (i : ι) (context : Context) :
    ((s.cancelRequest key).clients i).Live context ↔ (s.clients i).Live context := by
  simp [Client.Live, cancelRequest_running, cancelRequest_cursors]

end

theorem mem_reached (inv : Inv s) {key} {context} :
    context ∈ s.reached key ↔ ∃ i, (s.clients i).key = key ∧ (s.clients i).Live context := by
  refine exists_congr fun i => and_congr_right fun isKey => ?_
  split
  · exact isKey ▸ (inv.clients i).registered context
  · exact Iff.rfl

theorem cancelRequest_inv (inv : Inv s) (key : BackendKey) : Inv (s.cancelRequest key) where
  keys i j hs := inv.keys (by simpa [cancelRequest_key] using hs)
  clients i := by
    have old := inv.clients i
    exact {
      registered := fun context => by
        rw [cancelRequest_live, cancelRequest_key]
        exact old.registered context
      sole := by
        rw [cancelRequest_cursors]
        exact old.sole
      apart := by
        rw [cancelRequest_running, cancelRequest_cursors]
        exact old.apart
      fetching := by
        rw [cancelRequest_running, cancelRequest_cursors]
        exact old.fetching
      below := fun context live => old.below context ((cancelRequest_live s key i context).mp live) }
  owned i j context first second :=
    inv.owned i j context ((cancelRequest_live s key i context).mp first)
      ((cancelRequest_live s key j context).mp second)
  cancelled context hf := by
    rcases hf with old | hre
    · exact inv.cancelled context old
    · obtain ⟨i, -, live⟩ := (mem_reached inv).mp hre
      exact (inv.clients i).below context live

theorem contextOf_running (inv : Inv s) {operation} (executing : (s.clients i).running = some operation)
    (notPlain : operation ≠ .plain) :
    ∃ context, (s.clients i).contextOf operation = some context ∧ (s.clients i).Live context := by
  cases operation with
  | statement context => exact ⟨context, rfl, .inl executing⟩
  | fetch name opens =>
    obtain ⟨context, ho⟩ := ne_none_iff_exists'.mp ((inv.clients i).fetching name opens executing)
    exact ⟨context, ho, .inr ⟨name, ho⟩⟩
  | plain => exact absurd rfl notPlain

theorem cancelRequest_fair (inv : Inv s) (key : BackendKey) (hor : Orderly s (.cancelRequest key)) :
    Fair s (.cancelRequest key) (s.cancelRequest key) where
  hits k isRequest i operation isKey executing := by
    cases isRequest
    have notPlain : operation ≠ .plain := fun plain => hor i isKey (plain ▸ executing)
    obtain ⟨context, isContext, live⟩ := contextOf_running inv executing notPlain
    exact ⟨context, isContext, .inr ((mem_reached inv).mpr ⟨i, isKey, live⟩)⟩
  aims context hf new := by
    rcases hf with old | hre
    · exact absurd old new
    · obtain ⟨i, isKey, live⟩ := (mem_reached inv).mp hre
      exact ⟨key, i, rfl, isKey, live, fun j other => inv.owned j i context other live⟩
  starts i context live new := absurd ((cancelRequest_live s key i context).mp live) new
  keeps i context live := (((cancelRequest_inv inv key).clients i).registered context).mpr live

/-! ## Steps of one connection -/

variable [DecidableEq ι]

def Server.setLocal (s : Server ι) (i : ι) (client : Client) (registered : Option Context) (bound : Context) :
    Server ι where
  clients := Function.update s.clients i client
  activeQueries := Function.update s.activeQueries (s.clients i).key registered
  cancelled := s.cancelled
  nextContext := bound

theorem changes_setLocal {bound} (key : client.key = (s.clients i).key) (le : s.nextContext ≤ bound)
    (unused : ∀ context, client.Live context → (s.clients i).Live context ∨ s.nextContext ≤ context)
    (sound : ClientInv client registered bound) : Changes i s (s.setLocal i client registered bound) where
  others j other := update_of_ne other _ _
  key := by simp [Server.setLocal, key]
  registry k other := update_of_ne other _ _
  cancelled := rfl
  bound := le
  fresh := by simpa [Server.setLocal] using unused
  sound := by simpa [Server.setLocal, key] using sound

theorem changes_cleanup (key : client.key = (s.clients i).key)
    (cursors : ∀ name, client.cursors name = none) (running : client.running = none ∨ client.running = some .plain) :
    Changes i s (s.setLocal i client none s.nextContext) := by
  have dead (context : Context) : ¬ client.Live context := by
    rintro (executing | ⟨name, ho⟩)
    · rcases running with idle | plain <;> simp_all
    · simp [cursors] at ho
  apply changes_setLocal key le_rfl
  · exact fun context live => (dead context live).elim
  · exact {
      registered := fun context => by simp [dead]
      sole := fun name _ ho => absurd (cursors name) ho
      apart := fun _ _ => cursors
      fetching := fun name opens executing => by rcases running with idle | plain <;> simp_all
      below := fun context live => (dead context live).elim }

theorem changes_running (inv : Inv s) (key : client.key = (s.clients i).key)
    (cursors : client.cursors = (s.clients i).cursors)
    (before : ∀ context, (s.clients i).running ≠ some (.statement context))
    (after : ∀ context, client.running ≠ some (.statement context))
    (fetching : ∀ name opens, client.running = some (.fetch name opens) → client.cursors name ≠ none) :
    Changes i s (s.setLocal i client (s.activeQueries (s.clients i).key) s.nextContext) := by
  have hs (context : Context) : client.Live context ↔ (s.clients i).Live context := by
    simp [Client.Live, before, after, cursors]
  have old := inv.clients i
  apply changes_setLocal key le_rfl
  · exact fun context live => .inl ((hs context).mp live)
  · exact {
      registered := fun context => by rw [hs]; exact old.registered context
      sole := by rw [cursors]; exact old.sole
      apart := fun context executing => absurd executing (after context)
      fetching := fetching
      below := fun context live => old.below context ((hs context).mp live) }

theorem queryContextInner_eq (waits : (s.clients i).cancelCh ≠ some true) (client : Client) :
    (s.queryContextInner i).setClient i client = s.setLocal i client (some s.nextContext) (s.nextContext + 1) := by
  simp [Server.queryContextInner, waits, Server.registerQuery, Server.setClient, Server.setLocal]

theorem setClient_eq (client : Client) :
    s.setClient i client = s.setLocal i client (s.activeQueries (s.clients i).key) s.nextContext := by
  simp [Server.setClient, Server.setLocal]

theorem changes_fresh (key : client.key = (s.clients i).key)
    (live : ∀ context, client.Live context ↔ s.nextContext = context)
    (sole : ∀ name name', client.cursors name ≠ none → client.cursors name' ≠ none → name = name')
    (hne : ∀ context, client.running = some (.statement context) → ∀ name, client.cursors name = none)
    (fetching : ∀ name opens, client.running = some (.fetch name opens) → client.cursors name ≠ none) :
    Changes i s (s.setLocal i client (some s.nextContext) (s.nextContext + 1)) := by
  apply changes_setLocal key (Nat.le_succ _)
  · exact fun context isLive => .inr ((live context).mp isLive).le
  · exact {
      registered := fun context => by rw [live, some_inj]
      sole := sole
      apart := hne
      fetching := fetching
      below := fun context isLive => ((live context).mp isLive) ▸ Nat.lt_succ_self _ }

theorem changes_beginStatement (noCursor : ∀ name, (s.clients i).cursors name = none) :
    Changes i s (s.setLocal i { s.clients i with running := some (.statement s.nextContext) } (some s.nextContext)
      (s.nextContext + 1)) := by
  apply changes_fresh
  · rfl
  · simp [Client.Live, noCursor]
  · exact fun name _ ho => absurd (noCursor name) ho
  · exact fun _ _ => noCursor
  · exact nofun

theorem changes_openCursor {name} (noCursor : ∀ other, (s.clients i).cursors other = none) :
    Changes i s (s.setLocal i { s.clients i with
      running := some (.fetch name true)
      cursors := Function.update (s.clients i).cursors name (some s.nextContext) } (some s.nextContext)
      (s.nextContext + 1)) := by
  have cursors (other : Text) (context : Context) :
      Function.update (s.clients i).cursors name (some s.nextContext) other = some context ↔
        other = name ∧ s.nextContext = context := by
    by_cases isName : other = name
    · simp [isName]
    · simp [isName, noCursor]
  have ho (other : Text) (hf : Function.update (s.clients i).cursors name (some s.nextContext) other ≠ none) :
      other = name := by
    obtain ⟨context, isContext⟩ := ne_none_iff_exists'.mp hf
    exact ((cursors other context).mp isContext).1
  apply changes_fresh
  · rfl
  · simp [Client.Live, cursors]
  · exact fun one another first second => (ho one first).trans (ho another second).symm
  · exact nofun
  · intro other opens executing
    cases executing
    simp

theorem step_changes (inv : Inv s) (hor : Orderly s event) (ha : step s event = some next) :
    (∃ key, event = .cancelRequest key ∧ next = s.cancelRequest key) ∨
      (∀ key, event ≠ .cancelRequest key) ∧ ∃ i, Changes i s next := by
  cases event with
  | beginStatement i =>
    simp only [step, ite_none_right_eq_some, some_inj] at ha
    obtain ⟨idle, rfl⟩ := ha
    refine .inr ⟨by simp, i, ?_⟩
    rw [queryContextInner_eq hor.2]
    exact changes_beginStatement hor.1
  | endStatement i =>
    simp only [step] at ha
    split at ha
    case h_2 => cases ha
    case h_1 context executing =>
      cases ha
      refine .inr ⟨by simp, i, ?_⟩
      exact changes_cleanup rfl ((inv.clients i).apart context executing) (.inl rfl)
  | beginFetch i name =>
    simp only [step, ite_none_right_eq_some] at ha
    obtain ⟨idle, ha⟩ := ha
    refine .inr ⟨by simp, i, ?_⟩
    cases isCursor : (s.clients i).cursors name with
    | some context =>
      simp only [isCursor, some_inj] at ha
      rw [← ha, setClient_eq]
      apply changes_running inv
      · rfl
      · rfl
      · simp [idle]
      · simp
      · intro other opens executing
        cases executing
        simp [isCursor]
    | none =>
      simp only [isCursor, some_inj] at ha
      rw [← ha, queryContextInner_eq (hor.2 isCursor)]
      apply changes_openCursor
      intro other
      by_cases isName : other = name
      · rw [isName, isCursor]
      · exact hor.1 other isName
  | endFetch i =>
    simp only [step] at ha
    split at ha
    case h_2 => cases ha
    case h_1 name opens executing =>
      cases ha
      refine .inr ⟨by simp, i, ?_⟩
      rw [setClient_eq]
      apply changes_running inv <;> simp [executing]
  | failFetch i =>
    simp only [step] at ha
    split at ha
    case h_2 => cases ha
    case h_1 name executing =>
      cases ha
      refine .inr ⟨by simp, i, ?_⟩
      exact changes_cleanup rfl (closed_cursors inv ((inv.clients i).fetching name true executing)) (.inl rfl)
  | beginPlain i =>
    simp only [step, ite_none_right_eq_some, some_inj] at ha
    obtain ⟨idle, rfl⟩ := ha
    refine .inr ⟨by simp, i, ?_⟩
    rw [setClient_eq]
    apply changes_running inv <;> simp [idle]
  | endPlain i =>
    simp only [step, ite_none_right_eq_some, some_inj] at ha
    obtain ⟨quiet, rfl⟩ := ha
    refine .inr ⟨by simp, i, ?_⟩
    rw [setClient_eq]
    apply changes_running inv <;> simp [quiet]
  | closeCursor i name =>
    refine .inr ⟨by simp, i, ?_⟩
    simp only [step] at ha
    split at ha
    case h_1 => cases ha
    case h_2 noFetch noCursor =>
      cases ha
      exact {
        others := fun _ _ => rfl
        key := rfl
        registry := fun _ _ => rfl
        cancelled := rfl
        bound := le_rfl
        fresh := fun _ live => .inl live
        sound := inv.clients i }
    case h_3 context isCursor noFetch =>
      cases ha
      have ho : (s.clients i).cursors name ≠ none := by simp [isCursor]
      refine changes_cleanup ?_ (closed_cursors inv ho) ?_
      · rfl
      cases executing : (s.clients i).running with
      | none => exact .inl rfl
      | some operation =>
        cases operation with
        | statement other => exact absurd ((inv.clients i).apart other executing name) ho
        | fetch other opens => exact (noFetch other opens executing).elim
        | plain => exact .inr rfl
  | cancelRequest key =>
    cases ha
    exact .inl ⟨key, rfl, rfl⟩

theorem step_inv (inv : Inv s) (hor : Orderly s event) (ha : step s event = some next) : Inv next := by
  rcases step_changes inv hor ha with ⟨key, rfl, rfl⟩ | ⟨-, i, changes⟩
  · exact cancelRequest_inv inv key
  · exact changes.inv inv

theorem step_fair (inv : Inv s) (hor : Orderly s event) (ha : step s event = some next) : Fair s event next := by
  rcases step_changes inv hor ha with ⟨key, rfl, rfl⟩ | ⟨other, i, changes⟩
  · exact cancelRequest_fair inv key hor
  · exact changes.fair inv other

theorem cancel_requests_fair {start : Server ι} {before after : List (Event ι)} (fresh : Fresh start)
    (orderly : (machine ι).Obeys Orderly start (before ++ event :: after)) (run : (machine ι).run start before = some s)
    (action : (machine ι).step s event = some next) : Fair s event next := by
  have inv : Inv s := by
    refine (machine ι).invariant_of_obeys Inv ?_ fresh.inv orderly.left run
    exact fun _ _ _ => step_inv
  exact step_fair inv (orderly.right run).1 action

def twoClients : Server Bool where
  clients i := ⟨if i then ⟨2, 2⟩ else ⟨1, 1⟩, none, fun _ => none, none⟩
  activeQueries _ := none
  cancelled := ∅
  nextContext := 0

theorem twoClients_fresh : Fresh twoClients where
  keys := by rintro (_ | _) (_ | _) ⟨⟩ <;> rfl
  idle _ := rfl
  noCursor _ _ := rfl
  unregistered _ := rfl
  notCancelled := rfl

theorem cancel_requests_fair_cursor : ∃ s, (machine Bool).run twoClients [.beginFetch false ['c'], .endFetch false,
        .beginStatement true, .beginFetch false ['c']] = some s ∧
      (s.clients true).running = some (.statement 1) ∧ 0 ∈ (s.cancelRequest ⟨1, 1⟩).cancelled ∧
      1 ∉ (s.cancelRequest ⟨1, 1⟩).cancelled ∧ Fair s (.cancelRequest ⟨1, 1⟩) (s.cancelRequest ⟨1, 1⟩) := by
  refine ⟨?s, ?run, ?other, ?hit, ?missed,
    @cancel_requests_fair _ _ _ _ _ _ _ [] twoClients_fresh ?orderly ?run rfl⟩
  case run => rfl
  case other => rfl
  case hit => exact .inr ⟨false, rfl, rfl⟩
  case missed => rintro (⟨⟨⟩⟩ | ⟨_ | _, ⟨⟩, ⟨⟩⟩)
  case orderly =>
    refine .cons rfl ⟨fun _ _ => rfl, nofun⟩ (.cons rfl trivial (.cons rfl ⟨fun _ => rfl, nofun⟩
      (.cons rfl ⟨fun _ ne => update_of_ne ne _ _, nofun⟩ (.cons rfl ?_ trivial))))
    rintro (_ | _) ⟨⟩ ⟨⟩

theorem fetch_not_cancelled : Fresh twoClients ∧ ∃ s, (machine Bool).run twoClients [.beginFetch false ['c'],
        .endFetch false, .beginStatement false, .endStatement false, .beginFetch false ['c']] = some s ∧
      (machine Bool).step s (.cancelRequest ⟨1, 1⟩) = some (s.cancelRequest ⟨1, 1⟩) ∧
      ¬ Fair s (.cancelRequest ⟨1, 1⟩) (s.cancelRequest ⟨1, 1⟩) := by
  refine ⟨twoClients_fresh, _, rfl, rfl, fun fair => ?_⟩
  obtain ⟨context, -, cancelled⟩ := fair.hits ⟨1, 1⟩ rfl false (.fetch ['c'] false) rfl rfl
  rcases cancelled with ⟨⟨⟩⟩ | ⟨_ | _, ⟨⟩, ⟨⟩⟩

end Duckgres.Cancellation
