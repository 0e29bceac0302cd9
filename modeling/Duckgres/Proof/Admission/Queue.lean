import Duckgres.Proof.Admission.Statements

namespace Duckgres.Proof.Admission
open Base Duckgres.Store Duckgres.Admission OrgConnectionQueueEntry ConnectionPhase List Option Table

variable {lockKey : String → Int} {s : ConnectionTables} {t next : ConnectionTx} {db : ConnectionDb}

/-! ## The head of the queue -/

def timed? : ConnectionPhase → Option (String × Nat)
  | .timed orgID now | .requestsSwept orgID now | .ownersSwept orgID now | .cleaned orgID now => some (orgID, now)
  | .selected request now | .unleased request now => some (request.orgID, now)
  | _ => none

def ungranted? : ConnectionPhase → Option OrgConnectionQueueEntry
  | .unleased request _ | .atHead request _ _ | .admitted request _ _ | .created request _ _
  | .granted request _ _ => some request
  | _ => none

def head? : ConnectionPhase → Option (OrgConnectionQueueEntry × Nat × ConnectionQueue)
  | .atHead request now seen | .admitted request now seen | .created request now seen
  | .granted request now seen => some (request, now, seen)
  | _ => none

def First (request : OrgConnectionQueueEntry) (now : Nat) (queue : ConnectionQueue) : Prop :=
  ∀ other ∈ queue.rows, other.pendingAt request.orgID now = true → request.order ≤ other.order

structure InTurn (s : ConnectionTables) (t : ConnectionTx) : Prop where
  swept : ∀ orgID now, timed? t.phase = some (orgID, now) → ∀ id ∈ t.queue.dropped, ∀ row,
    s.queue.find? id = some row → row.pendingAt orgID now = false
  ungranted : ∀ request, ungranted? t.phase = some request → request.grantedAt = none
  first : ∀ request now seen, head? t.phase = some (request, now, seen) → First request now seen

theorem InTurn.goTo (turn : InTurn s t) (queue : next.queue = t.queue)
    (timed : ∀ org now, timed? next.phase = some (org, now) → timed? t.phase = some (org, now))
    (ungranted : ∀ request, ungranted? next.phase = some request → ungranted? t.phase = some request)
    (head : ∀ head, head? next.phase = some head → head? t.phase = some head) : InTurn s next where
  swept orgID now hk := by
    rw [queue]
    exact turn.swept orgID now (timed orgID now hk)
  ungranted request hk := turn.ungranted request (ungranted request hk)
  first request now seen hk := turn.first request now seen (head _ hk)

theorem InTurn.plain (timed : timed? t.phase = none) (ungranted : ungranted? t.phase = none)
    (head : head? t.phase = none) : InTurn s t where
  swept _ _ hk := by cases timed.symm.trans hk
  ungranted _ hk := by cases ungranted.symm.trans hk
  first _ _ _ hk := by cases head.symm.trans hk

variable {now : Nat} {request : OrgConnectionQueueEntry}

theorem swept_of_sweep (locked : Locked lockKey s t) {orgID} (hp : t.phase = .timed orgID now) {id row}
    (dropped : id ∈ t.queue.dropped ++ (s.view t).expiredRequests orgID now)
    (hf : s.queue.find? id = some row) : row.pendingAt orgID now = false := by
  have nothing := (locked.early (by simp [hp])).1
  rw [nothing] at dropped
  have isExpired := locked.expired (by simp [hp]) dropped hf
  simp only [expiredAt, Bool.and_eq_true, decide_eq_true_eq] at isExpired
  have late : ¬ now < row.expiresAt := by omega
  simp [pendingAt, late]

theorem first_of_head (locked : Locked lockKey s t) (turn : InTurn s t) (hp : t.phase = .unleased request now)
    (head : (s.view t).isOrgConnectionQueueHead request now = true) : First request now s.queue := by
  intro other hm pending
  -- the transaction has deleted expired requests only, so it sees `other`
  have hf : s.queue.find? other.requestID = some other := find?_eq_some.mpr ⟨hm, rfl⟩
  have kept : other.requestID ∉ t.queue.dropped := by
    intro dropped
    have expired := turn.swept _ _ (by rw [hp]; rfl) _ dropped other hf
    rw [pending] at expired
    cases expired
  have visible : (s.view t).queue.find? other.requestID = some other := by
    rw [locked.view_queue (by simp [hp]), Pending.find?_rest, if_neg kept]
    exact hf
  obtain ⟨first, least, hs⟩ := (any_eq_true _ _).mp head
  have firstVisible := mem_of_mem_filter (argmin_mem least)
  have own := locked.view_request (by simp [hp]) (by rw [hp]; rfl)
  have firstFound := find?_eq_some.mpr ⟨firstVisible, of_decide_eq_true hs⟩
  cases own.symm.trans firstFound
  exact le_of_mem_argmin (mem_filter.mpr ⟨(find?_eq_some.mp visible).1, pending⟩) least

theorem inTurn_of_moves (locked : Locked lockKey s t) (turn : InTurn s t)
    (hv : Moves lockKey s t next) : InTurn s next := by
  cases hv with
  | finds | misses | locks | retries | leased | refuses | waits | stamps | enqueues | releases
  | dequeues => exact .plain rfl rfl rfl
  | @times _ _ hp =>
    refine ⟨fun org time hk id dropped => ?_, by simp [ungranted?], by simp [head?]⟩
    change id ∈ t.queue.dropped at dropped
    rw [(locked.early (by simp [hp])).1] at dropped
    cases dropped
  | sweepsRequests hp =>
    refine ⟨fun org time hk id dropped row hf => ?_, by simp [ungranted?], by simp [head?]⟩
    cases hk
    exact swept_of_sweep locked hp dropped hf
  | sweepsOwners hp | sweepsMissing hp =>
    exact turn.goTo rfl (by simp [hp, timed?]) (by simp [ungranted?]) (by simp [head?])
  | selects _ hp _ hs => exact turn.goTo rfl (by simp [hp, timed?, hs]) (by simp [ungranted?]) (by simp [head?])
  | passes _ hp _ eligible =>
    refine ⟨fun org time hk => turn.swept org time ?_, fun row hk => ?_, by simp [head?]⟩
    · rw [hp]
      exact hk
    · cases hk
      exact eligible.2.2
  | @heads _ _ hp head =>
    refine ⟨by simp [timed?], fun row hk => turn.ungranted row ?_, fun row time seen hk => ?_⟩
    · rw [hp]
      exact hk
    · cases hk
      exact first_of_head locked turn hp head
  | admits _ hp | creates hp | grants hp | grantsNone hp =>
    refine ⟨by simp [timed?], fun row hk => turn.ungranted row ?_, fun row time seen hk => turn.first row time seen ?_⟩
    · rw [hp]
      exact hk
    · rw [hp]
      exact hk

theorem InTurn.stable {d} (mine : Locked lockKey s t) (theirs : Locked lockKey s d)
    (turn : InTurn s d) (hne : ∀ k ∈ t.held, k ∉ d.held) : InTurn (s.view t) d where
  swept orgID now hk id dropped row hf := by
    have hl := theirs.requests id (mem_append_left _ dropped)
    have untouched : id ∉ t.queue.keys := fun puts => hne _ (mine.requests id puts) hl
    exact turn.swept orgID now hk id dropped row ((Pending.find?_apply_of_not_mem untouched).symm.trans hf)
  ungranted := turn.ungranted
  first := turn.first

theorem InTurn.single (locked : Locked lockKey s t) (turn : InTurn s t) (op : ConnectionOp)
    (hne : ∀ k ∈ (s.single op).2, k ∉ t.held) : InTurn (s.single op).1 t where
  swept orgID now hk id dropped row hf := by
    have hl := locked.requests id (mem_append_left _ dropped)
    have hs := single_request op fun ht => hne _ ht hl
    exact turn.swept orgID now hk id dropped row (hs.symm.trans hf)
  ungranted := turn.ungranted
  first := turn.first

def GrantedOnce (s : ConnectionTables) : Prop := ∀ id, s.grants id ≤ 1 ∧
  (s.grants id = 1 → ∀ row, s.queue.find? id = some row → row.grantedAt ≠ none)

theorem grantedOnce_view (locked : Locked lockKey s t) (turn : InTurn s t) (once : GrantedOnce s)
    (done : t.finish = some next) : GrantedOnce (s.view t) := by
  intro id
  obtain ⟨atMost, marked⟩ := once id
  have rest (hs : t.phase.grants s.grants id = s.grants id) (unwritten : ∀ entry, t.queue.put =
      some entry → entry.requestID ≠ id) : (s.view t).grants id ≤ 1 ∧
      ((s.view t).grants id = 1 → ∀ row, (s.view t).queue.find? id = some row → row.grantedAt ≠ none) := by
    refine ⟨hs.trans_le atMost, fun one row hf => ?_⟩
    rcases Pending.apply_cases hf with ⟨puts, key⟩ | ⟨-, old⟩
    · exact absurd key (unwritten row puts)
    · exact marked (hs.symm.trans one) row old
  have puts := locked.entryPut
  unfold ConnectionTx.finish at done
  split at done
  · rename_i request now seen hp
    by_cases hs : id = request.requestID
    · subst hs
      obtain ⟨-, hf, -⟩ := locked.request request (by rw [hp]; rfl)
      have ungranted := turn.ungranted request (by rw [hp]; rfl)
      have never : s.grants request.requestID = 0 := by
        by_contra some
        exact marked (by omega) request hf ungranted
      constructor
      · simp [ConnectionTables.view, hp, grants, never]
      · intro _ row rowFound
        have put : t.queue.put = some { request with grantedAt := some now } := by
          rw [puts, hp]
          rfl
        cases (Pending.find?_apply_put put).symm.trans rowFound
        simp
    · refine rest (by simp [hp, grants, hs]) fun entry put => ?_
      rw [puts, hp] at put
      cases put
      exact Ne.symm hs
  · rename_i lease hp
    exact rest (by simp [hp, grants]) (by simp [puts, hp])
  · rename_i hp
    exact rest (by simp [hp, grants]) (by simp [puts, hp])
  · rename_i entry hp
    by_cases hs : id = entry.requestID
    · subst hs
      have zero : (s.view t).grants entry.requestID = 0 := by
        simp [ConnectionTables.view, hp, grants]
      exact ⟨by omega, fun one => by omega⟩
    · refine rest (by simp [hp, grants, hs]) fun other put => ?_
      rw [puts, hp] at put
      cases put
      exact Ne.symm hs
  · rename_i hp
    exact rest (by simp [hp, grants]) (by simp [puts, hp])
  · cases done

theorem grantedOnce_single (once : GrantedOnce s) (op : ConnectionOp) : GrantedOnce (s.single op).1 := by
  intro id
  rw [(single_leases op).2]
  exact ⟨(once id).1, fun one row hf => (once id).2 one row (find?_of_single op hf)⟩

theorem Idle.inTurn (idle : Idle t) : InTurn s t := by
  obtain ⟨-, -, begun | ⟨result, returned⟩⟩ := idle
  · exact .plain (by rw [begun]; rfl) (by rw [begun]; rfl) (by rw [begun]; rfl)
  · exact .plain (by rw [returned]; rfl) (by rw [returned]; rfl) (by rw [returned]; rfl)

theorem inTurn_keeps : (admissions lockKey).Keeps (AllLocked lockKey) (fun _ _ => True) GrantedOnce
    (fun s _ => InTurn s) where
  start _ _ call _ _ _ := (idle_start call).inTurn
  statement _ tx _ t _ hk hh _ hf hd := inTurn_of_moves (hk.own tx t hf) (hh.own tx t hf) (moves_of_statement hd)
  commit _ tx t _ hk hh _ hf done :=
    ⟨grantedOnce_view (hk.own tx t hf) (hh.own tx t hf) hh.rows done, (idle_finish done).inTurn⟩
  stable _ tx t _ other d hk hh _ hf _ hfo hne := .stable (hk.own tx t hf) (hk.own other d hfo) (hh.own other d hfo) hne
  abort _ _ _ _ _ _ _ _ done := (idle_abort done).inTurn
  single db op rows ks _ hh _ hd := by
    have once := grantedOnce_single hh.rows op
    rw [Option.some.inj hd] at once
    exact once
  unmoved db op rows ks tx t hk hh _ hd hf hne := by
    have turn := (hh.own tx t hf).single (hk.own tx t hf) op
    rw [Option.some.inj hd] at turn
    exact turn hne

theorem granted_of_lease (locked : AllLocked lockKey db)
    (turns : (admissions lockKey).Holds GrantedOnce (fun s _ => InTurn s) db)
    {step after id lease}
    (ha : (admissions lockKey).machine.step db step = some after)
    (absent : db.rows.leases.find? id = none) (present : after.rows.leases.find? id = some lease) :
    ∃ tx t request now seen, step = .commit tx ∧ db.txs tx = some t ∧
      t.phase = .granted request now seen ∧ lease = request.lease now ∧ First request now seen := by
  cases Transactions.takes_of_step ha with
  | start | statement | abort => cases absent.symm.trans present
  | @single op rows _ hd =>
    have leases : (db.rows.single op).1.leases = db.rows.leases := (single_leases op).1
    rw [Option.some.inj hd] at leases
    rw [leases] at present
    cases absent.symm.trans present
  | @commit tx t next hf done =>
    rcases Pending.apply_cases present with ⟨puts, -⟩ | ⟨-, old⟩
    · rw [(locked.own tx t hf).leasePut] at puts
      have first := (turns.own tx t hf).first
      change t.finish = some next at done
      unfold ConnectionTx.finish at done
      split at done
      · rename_i request now seen hp
        rw [hp] at puts first
        cases puts
        exact ⟨tx, t, request, now, seen, rfl, hf, hp, rfl, first request now seen rfl⟩
      all_goals
        rename_i hp
        first
          | (rw [hp] at puts; cases puts)
          | cases done
    · cases absent.symm.trans old

/-! ## The lease of a granted request -/

variable {lease : OrgConnectionLease}

structure Leased (lease : OrgConnectionLease) (s : ConnectionTables) : Prop where
  found : s.leases.find? lease.requestID = some lease
  granted : ∃ row, s.queue.find? lease.requestID = some row ∧ row.grantedAt ≠ none ∧ row.orgID = lease.orgID

structure Spares (lease : OrgConnectionLease) (t : ConnectionTx) : Prop where
  leases : lease.requestID ∉ t.leases.keys
  requests : lease.requestID ∉ t.queue.keys
  selected : ∀ request, request? t.phase = some request → request.requestID = lease.requestID →
    ∃ now, t.phase = .selected request now

def onCourse (lease : OrgConnectionLease) : ConnectionPhase → Prop
  | .begun | .selected _ _ | .returned (.error _) => True
  | .found orgID | .locked orgID | .timed orgID _ | .requestsSwept orgID _ | .ownersSwept orgID _
  | .cleaned orgID _ => orgID = lease.orgID
  | .ending result | .returned (.lease result) => result = some lease
  | _ => False

def OnCourse (lease : OrgConnectionLease) (t : ConnectionTx) : Prop :=
  ∀ max, t.call = .tryAcquire lease.requestID max → onCourse lease t.phase

/-- The lease is not being released, and no cleanup finds its owner expired, or missing for longer
than the grace. -/
def Undisturbed (lease : OrgConnectionLease) (db : ConnectionDb) : ConnectionStep → Prop
  | .statement tx _ => ∀ t, db.txs tx = some t → t.call ≠ .release lease.leaseID ∧
      (∀ now, t.phase = .requestsSwept lease.orgID now → db.rows.ownerExpired lease = false) ∧
      ∀ now, t.phase = .ownersSwept lease.orgID now → db.rows.ownerMissing now lease = false
  | _ => True

theorem Leased.view (leased : Leased lease s) (spares : Spares lease t) : Leased lease (s.view t) where
  found := (Pending.find?_apply_of_not_mem spares.leases).trans leased.found
  granted := by
    obtain ⟨row, hf, hg, org⟩ := leased.granted
    exact ⟨row, (Pending.find?_apply_of_not_mem spares.requests).trans hf, hg, org⟩

theorem Leased.single (leased : Leased lease s) (op : ConnectionOp) : Leased lease (s.single op).1 where
  found := by
    rw [(single_leases op).1]
    exact leased.found
  granted := by
    obtain ⟨row, hf, hg, org⟩ := leased.granted
    exact ⟨row, find?_single_of_granted op hf hg, hg, org⟩

section
variable (spares : Spares lease t)
include spares

theorem Spares.goTo {phase}
    (selected : ∀ request, request? phase = some request → request.requestID = lease.requestID →
      ∃ now, phase = .selected request now) : Spares lease (t.goTo phase) :=
  ⟨spares.leases, spares.requests, selected⟩

theorem Spares.dropLeases {ids phase} (spared : lease.requestID ∉ ids)
    (done : request? phase = none) : Spares lease ((t.dropLeases ids).goTo phase) :=
  ⟨fun hm => (Pending.mem_keys_drop.mp hm).elim spares.leases spared, spares.requests,
    fun _ selected => nomatch done.symm.trans selected⟩

theorem Spares.dropRequests {ids phase} (spared : lease.requestID ∉ ids)
    (done : request? phase = none) : Spares lease ((t.dropRequests ids).goTo phase) :=
  ⟨spares.leases, fun hm => (Pending.mem_keys_drop.mp hm).elim spares.requests spared,
    fun _ selected => nomatch done.symm.trans selected⟩

theorem Spares.other (before : request? t.phase = some request) (unselected : ∀ row now, t.phase ≠ .selected row now) :
    request.requestID ≠ lease.requestID := by
  intro hs
  obtain ⟨now, selected⟩ := spares.selected request before hs
  exact unselected request now selected

theorem Spares.goesOn {phase} (other : request.requestID ≠ lease.requestID)
    (hk : request? phase = some request) : Spares lease (t.goTo phase) := by
  refine spares.goTo fun row selected hs => ?_
  cases hk.symm.trans selected
  exact absurd hs other

end

theorem spares_of_moves (locked : Locked lockKey s t) (leased : Leased lease s)
    (spares : Spares lease t) (unreleased : t.call ≠ .release lease.leaseID)
    (live : ∀ now, t.phase = .requestsSwept lease.orgID now → s.ownerExpired lease = false)
    (hk : ∀ now, t.phase = .ownersSwept lease.orgID now → s.ownerMissing now lease = false)
    (hv : Moves lockKey s t next) : Spares lease next := by
  have visible := leased.view spares
  cases hv with
  | finds | misses | times | leased | refuses | waits | stamps => exact spares.goTo (by simp)
  | locks | retries => exact ⟨spares.leases, spares.requests, by simp⟩
  | @sweepsRequests _ _ hp =>
    refine spares.dropRequests (fun expired => ?_) rfl
    obtain ⟨row, hf, hg, -⟩ := leased.granted
    have isExpired := locked.expired (by simp [hp]) expired hf
    simp [expiredAt, waiting, hg] at isExpired
  | @sweepsOwners _ now hp =>
    refine spares.dropLeases (fun expired => ?_) rfl
    obtain ⟨rfl, owner⟩ := locked.gone (by simp [hp]) expired leased.found
    cases (live now hp).symm.trans owner
  | @sweepsMissing _ now hp =>
    refine spares.dropLeases (fun missing => ?_) rfl
    obtain ⟨rfl, owner⟩ := locked.gone (by simp [hp]) missing leased.found
    cases (hk now hp).symm.trans owner
  | @selects _ _ _ now =>
    refine ⟨spares.leases, spares.requests, fun row selected _ => ?_⟩
    cases selected
    exact ⟨now, rfl⟩
  | @passes _ _ _ request call hp gone =>
    refine spares.goTo fun row selected hs => ?_
    cases selected
    obtain ⟨other, called⟩ := locked.called request (by rw [hp]; rfl)
    cases call.symm.trans called
    rw [hs, visible.found] at gone
    cases gone
  | heads hp | admits _ hp | grantsNone hp => exact spares.goesOn (spares.other (by rw [hp]; rfl) (by simp [hp])) rfl
  | @creates request now seen hp =>
    have other : request.requestID ≠ lease.requestID := spares.other (by rw [hp]; rfl) (by simp [hp])
    have goes : Spares lease (t.goTo (.created request now seen)) := spares.goesOn other rfl
    refine ⟨fun hm => ?_, spares.requests, goes.selected⟩
    rcases Pending.mem_keys_set hm with old | hs
    · exact spares.leases old
    · exact other hs.symm
  | @grants request _ now seen hp hf =>
    have other : request.requestID ≠ lease.requestID := spares.other (by rw [hp]; rfl) (by simp [hp])
    have goes : Spares lease (t.goTo (.granted request now seen)) := spares.goesOn other rfl
    refine ⟨spares.leases, fun hm => ?_, goes.selected⟩
    rcases Pending.mem_keys_set hm with old | hs
    · exact spares.requests old
    · exact other ((key_of_find? hf).symm.trans hs.symm)
  | enqueues _ fresh =>
    refine ⟨spares.leases, fun hm => ?_, by simp⟩
    rcases Pending.mem_keys_set hm with old | hs
    · exact spares.requests old
    · obtain ⟨row, hf, -⟩ := visible.granted
      rw [hs] at hf
      cases fresh.symm.trans hf
  | @releases _ call =>
    refine spares.dropLeases (fun deleted => unreleased (call.trans ?_)) rfl
    rw [← key_of_mem_find? deleted]
    rfl
  | @dequeues _ call =>
    refine spares.dropRequests (fun deleted => unreleased (call.trans ?_)) rfl
    rw [← key_of_mem_find? deleted]
    rfl

theorem onCourse_of_moves (leased : Leased lease (s.view t)) (course : OnCourse lease t)
    (hv : Moves lockKey s t next) : OnCourse lease next := by
  intro max called
  obtain ⟨row, rowFound, -, org⟩ := leased.granted
  cases hv with
  | finds call _ hf hs =>
    cases call.symm.trans called
    cases rowFound.symm.trans hf
    exact hs.symm.trans org
  | misses call _ gone =>
    cases call.symm.trans called
    cases rowFound.symm.trans gone
  | locks hp | times hp | sweepsRequests hp | sweepsOwners hp | sweepsMissing hp =>
    have here := course max called
    rw [hp] at here
    exact here
  | selects => trivial
  | retries call hp hf other =>
    cases call.symm.trans called
    cases rowFound.symm.trans hf
    have here := course max called
    rw [hp] at here
    exact absurd (org.trans here.symm) other
  | leased call _ hf =>
    cases call.symm.trans called
    exact hf.symm.trans leased.found
  | refuses call _ gone | passes call _ gone =>
    cases call.symm.trans called
    cases leased.found.symm.trans gone
  | waits hp =>
    have here := course max called
    rcases hp with hp | ⟨seen, hp⟩
    · rw [hp] at here
      cases here
    · rw [hp] at here
      cases here
  | heads hp | admits _ hp | creates hp | grants hp | grantsNone hp
  | enqueues hp =>
    have here := course max called
    rw [hp] at here
    cases here
  | stamps call | releases call | dequeues call => cases call.symm.trans called

theorem Idle.spares (idle : Idle t) : Spares lease t := by
  obtain ⟨queue, leases, begun | ⟨result, returned⟩⟩ := idle
  · constructor <;> simp_all [Pending.keys, Pending.none]
  · constructor <;> simp_all [Pending.keys, Pending.none]

theorem onCourse_start (call : ConnectionCall) : OnCourse lease (.start call) := by
  intro max called
  subst called
  change onCourse lease (if isBlank lease.requestID then _ else _)
  split <;> trivial

theorem onCourse_finish (course : OnCourse lease t) (done : t.finish = some next) : OnCourse lease next := by
  intro max called
  unfold ConnectionTx.finish at done
  split at done
  case h_6 => cases done
  all_goals
    rename_i hp
    cases done
    have here := course max called
    rw [hp] at here
    first
      | exact here
      | cases here

theorem onCourse_abort (done : t.abort = some next) : OnCourse lease next := by
  intro max called
  unfold ConnectionTx.abort at done
  split at done
  · cases done
  · cases done
    trivial

theorem leased_keeps (fresh : Nat → Prop) : (admissions lockKey).Keeps (AllLocked lockKey)
    (Undisturbed lease) (Leased lease)
    (fun _ tx t => Spares lease t ∧ (fresh tx → OnCourse lease t)) where
  start _ _ call _ _ _ := ⟨(idle_start call).spares, fun _ => onCourse_start call⟩
  statement db tx _ t _ hk hh kept hf hd := by
    obtain ⟨unreleased, live, owned⟩ := kept t hf
    obtain ⟨spares, course⟩ := hh.own tx t hf
    have leased := hh.rows.view spares
    exact ⟨spares_of_moves (hk.own tx t hf) hh.rows spares unreleased live owned
        (moves_of_statement hd),
      fun new => onCourse_of_moves leased (course new) (moves_of_statement hd)⟩
  commit _ tx t _ _ hh _ hf done := by
    obtain ⟨spares, course⟩ := hh.own tx t hf
    exact ⟨hh.rows.view spares, (idle_finish done).spares, fun new => onCourse_finish (course new) done⟩
  stable _ _ _ _ other d _ hh _ _ _ hfo _ := hh.own other d hfo
  abort _ _ _ _ _ _ _ _ done := ⟨(idle_abort done).spares, fun _ => onCourse_abort done⟩
  single db op rows ks _ hh _ hd := by
    have leased := hh.rows.single op
    rw [Option.some.inj hd] at leased
    exact leased
  unmoved _ _ _ _ tx t _ hh _ _ hf _ := hh.own tx t hf

theorem leased_of_grant (locks : AllLocked lockKey db) {tx seen} (hf : db.txs tx = some t)
    (hp : t.phase = .granted request now seen) {after}
    (ha : (admissions lockKey).machine.step db (.commit tx) = some after) :
    (admissions lockKey).Holds (Leased (request.lease now))
      (fun _ other d => Spares (request.lease now) d ∧
        (db.txs other = none → OnCourse (request.lease now) d)) after := by
  have hl := (allLocked_step locks ha).held
  cases Transactions.takes_of_step ha with
  | @commit _ _ _ hf' done =>
    cases hf.symm.trans hf'
    have own := locks.own tx t hf
    have entry : t.queue.put = some { request with grantedAt := some now } := by
      rw [own.entryPut, hp]
      rfl
    have created : t.leases.put = some (request.lease now) := by
      rw [own.leasePut, hp]
      rfl
    have rowFound := Pending.find?_apply_put (t := db.rows.queue) entry
    refine ⟨hl, ⟨Pending.find?_apply_put created, _, rowFound, by simp, rfl⟩, ?_⟩
    refine Db.forall_txs_set ⟨(idle_finish done).spares, fun new => ?_⟩ fun other d hne hfo => ?_
    · cases hf.symm.trans new
    -- the lease, the entry and the request are locked by `tx`
    have theirs := locks.own other d hfo
    have alone (k : LockKey) (mine : k ∈ t.held) (theirs : k ∈ d.held) : False :=
      hne ((locks.held other d hfo k theirs).unique (locks.held tx t hf k mine))
    have requestHeld : .request request.requestID ∈ t.held := own.requests _ (by
      simp [Pending.keys, entry])
    have leaseHeld : .lease request.requestID ∈ t.held := own.leases _ (by
      simp [Pending.keys, created, OrgConnectionLease.leaseID, OrgConnectionQueueEntry.lease])
    refine ⟨⟨fun hm => alone _ leaseHeld (theirs.leases _ hm),
      fun hm => alone _ requestHeld (theirs.requests _ hm), fun row selected hs => ?_⟩,
      fun new => ?_⟩
    · obtain ⟨theirsHeld, -⟩ := theirs.request row selected
      rw [hs] at theirsHeld
      exact (alone _ requestHeld theirsHeld).elim
    · cases hfo.symm.trans new

theorem connections_granted_in_turn {rows : ConnectionTables} {steps : List ConnectionStep}
    (start : ∀ id, rows.grants id = 0)
    (run : (admissions lockKey).machine.run (.init rows) steps = some db) :
    -- a lease goes to a request that was first when the head of the queue was read
    (∀ step after id lease, (admissions lockKey).machine.step db step = some after →
      db.rows.leases.find? id = none → after.rows.leases.find? id = some lease →
      ∃ tx t request now seen, step = .commit tx ∧ db.txs tx = some t ∧
        t.phase = .granted request now seen ∧ lease = request.lease now ∧ First request now seen) ∧
    -- a request is granted at most once
    (∀ id, db.rows.grants id ≤ 1) ∧
    ∀ tx t request now seen after, db.txs tx = some t → t.phase = .granted request now seen →
      (admissions lockKey).machine.step db (.commit tx) = some after →
      ∀ rest final, (admissions lockKey).machine.Obeys (Undisturbed (request.lease now)) after rest →
        (admissions lockKey).machine.run after rest = some final →
        ∀ later d max result, db.txs later = none → final.txs later = some d →
          d.call = .tryAcquire request.requestID max → d.phase = .returned (.lease result) →
          result = some (request.lease now) := by
  have once : GrantedOnce rows := fun id => ⟨by simp [start], fun one => by simp [start] at one⟩
  have locked : AllLocked lockKey db := Transactions.holds_of_obeys locked_keeps
    (fun _ _ _ _ _ => trivial) trivial (allLocked_init rows) (Machine.obeys_true _ _ _) run
  have turns := Transactions.holds_of_obeys inTurn_keeps
    (fun _ _ _ => allLocked_step) (allLocked_init rows)
    (Transactions.holds_init once) (Machine.obeys_true _ _ _) run
  refine ⟨fun step after id lease => granted_of_lease locked turns, fun id => (turns.rows id).1, ?_⟩
  intro tx t request now seen after hf phase ha rest final undisturbed further
    later d max result new hfl called returned
  have hh := Transactions.holds_of_obeys (leased_keeps fun other => db.txs other = none)
    (fun _ _ _ => allLocked_step) (allLocked_step locked ha)
    (leased_of_grant locked hf phase ha) undisturbed further
  have course := (hh.own later d hfl).2 new max called
  rw [returned] at course
  exact course

def queueRequest (requestID : String) : OrgConnectionQueueEntry := ⟨requestID, "org", "a", 1, "pg", 1, 9, none, none⟩

def queueRows : ConnectionTables :=
  ⟨⟨[queueRequest "r"], by decide⟩, .empty, ⟨[⟨"a", .active, 1, none, none⟩], by decide⟩, fun _ => 0⟩

theorem connections_granted_in_turn_twice : ∃ db after final d result,
    (admissions fun _ => 0).machine.run (.init queueRows)
      (.start 0 (.tryAcquire "r" 0) :: statements 0 12 3) = some db ∧
    (admissions fun _ => 0).machine.step db (.commit 0) = some after ∧
    (admissions fun _ => 0).machine.run after (wholeCall 1 (.tryAcquire "r" 0) 8 4) = some final ∧
    final.txs 1 = some d ∧ d.phase = .returned (.lease result) ∧
    db.rows.grants "r" ≤ 1 ∧ result = some ((queueRequest "r").lease 3) := by
  refine ⟨?db, ?after, ?final, ?d, ?result, ?run, ?commit, ?again, ?later, ?returned,
    (connections_granted_in_turn (fun _ => rfl) ?run).2.1 "r",
    (connections_granted_in_turn (fun _ => rfl) ?run).2.2 0 ?t _ 3 ?seen _ ?held ?phase ?commit _ _ ?undisturbed ?again
      1 _ 0 _ ?unused ?later ?called ?returned⟩
  case run => rfl
  case commit => rfl
  case again => rfl
  case later => rfl
  case returned => rfl
  case held => rfl
  case phase => rfl
  case undisturbed =>
    refine .cons rfl trivial ?_
    iterate 8
      refine .cons rfl (fun t found => ?_) ?_
      · cases found
        exact ⟨fun called => (by cases called), fun _ _ => rfl, fun _ _ => rfl⟩
    exact .cons rfl trivial trivial
  all_goals rfl

theorem connections_granted_out_of_turn : (∃ db after lease first request,
      (admissions fun _ => 0).machine.run (.init noConnections)
        ([.start 0 (.enqueue (queueRequest "a") 1)] ++ statements 0 1 1 ++
          wholeCall 1 (.enqueue (queueRequest "b") 1) 2 2 ++
          [.start 2 (.tryAcquire "b" 0)] ++ statements 2 9 3 ++ statements 0 1 3 ++ [.commit 0] ++
          statements 2 3 3) = some db ∧
      (admissions fun _ => 0).machine.step db (.commit 2) = some after ∧
      db.rows.leases.find? "b" = none ∧ after.rows.leases.find? "b" = some lease ∧
      db.rows.queue.find? "b" = some request ∧ db.rows.queue.find? "a" = some first ∧
      first.pendingAt lease.orgID lease.acquiredAt = true ∧ first.order < request.order) ∧
    ∃ final granted again lease,
      (admissions fun _ => 0).machine.run (.init noConnections)
        (wholeCall 0 (.enqueue (queueRequest "r") 1) 2 1 ++ wholeCall 1 (.tryAcquire "r" 0) 12 2 ++
          wholeCall 2 (.tryAcquire "r" 0) 8 300000000002) = some final ∧
      final.txs 1 = some granted ∧ granted.phase = .returned (.lease (some lease)) ∧
      final.txs 2 = some again ∧ again.phase = .returned (.lease none) := by
  constructor
  · exact ⟨_, _, _, _, _, rfl, rfl, rfl, rfl, rfl, rfl, rfl, by decide⟩
  · exact ⟨_, _, _, _, rfl, rfl, rfl, rfl, rfl⟩

end Duckgres.Proof.Admission
