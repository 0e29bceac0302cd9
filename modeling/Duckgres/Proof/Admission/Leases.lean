import Duckgres.Proof.Admission.Statements

namespace Duckgres.Proof.Admission
open Base Duckgres.Store Duckgres.Admission Table List Option

variable {lockKey : String → Int} {s : ConnectionTables} {t next : ConnectionTx} {db : ConnectionDb} {org : String}

structure Matched (org : String) (s : ConnectionTables) : Prop where
  granted : ∀ id row, s.queue.find? id = some row → row.grantedAt ≠ none → row.orgID = org →
    ∃ lease, s.leases.find? id = some lease ∧ lease.orgID = org
  leased : ∀ id lease, s.leases.find? id = some lease → lease.orgID = org →
    ∃ row, s.queue.find? id = some row ∧ row.grantedAt ≠ none ∧ row.orgID = org

structure Paired (org : String) (s : ConnectionTables) (t : ConnectionTx) : Prop where
  requests : ∀ id ∈ t.queue.dropped, ∀ row, s.queue.find? id = some row → row.grantedAt ≠ none →
    row.orgID = org → id ∈ t.leases.dropped
  leases : t.phase ≠ .released → ∀ id ∈ t.leases.dropped, ∀ lease, s.leases.find? id = some lease →
    lease.orgID = org → id ∈ t.queue.dropped
  released : t.phase = .released → t.queue.dropped = [] ∧ ∀ id ∈ t.leases.dropped, t.call = .release id
  called : ∀ entry clock, t.call = .enqueue entry clock → entry.grantedAt = none
  stamped : ∀ entry, t.phase = .stamped entry ∨ t.phase = .enqueued entry → entry.grantedAt = none
  fresh : ∀ entry, t.phase = .enqueued entry → s.queue.find? entry.requestID = none

/-- A request is not marked granted when it is enqueued. When a cleanup of the organisation runs, no
owner of its leases is expired, or missing for longer than the grace. When a release deletes the
request, it has deleted the lease. -/
def LeasesKept (org : String) (db : ConnectionDb) : ConnectionStep → Prop
  | .start _ (.enqueue entry _) => entry.grantedAt = none
  | .statement tx _ => ∀ t, db.txs tx = some t → ∀ id lease,
      db.rows.leases.find? id = some lease → lease.orgID = org →
      (∀ now, t.phase = .requestsSwept org now → db.rows.ownerExpired lease = false) ∧
      (∀ now, t.phase = .ownersSwept org now → db.rows.ownerMissing now lease = false) ∧
      (t.phase = .released → t.call = .release id → id ∈ t.leases.dropped)
  | _ => True

theorem Paired.goesOn (paired : Paired org s t) (queue : next.queue.dropped = t.queue.dropped)
    (leases : next.leases.dropped = t.leases.dropped) (call : next.call = t.call)
    (deleting : t.phase ≠ .released) (released : next.phase ≠ .released)
    (stamped : ∀ entry, ¬ (next.phase = .stamped entry ∨ next.phase = .enqueued entry)) :
    Paired org s next where
  requests := by
    rw [queue, leases]
    exact paired.requests
  leases _ := by
    rw [queue, leases]
    exact paired.leases deleting
  released hk := absurd hk released
  called := by
    rw [call]
    exact paired.called
  stamped entry hk := absurd hk (stamped entry)
  fresh entry hk := absurd (.inr hk) (stamped entry)

theorem Paired.dropLeases (paired : Paired org s t) {ids phase}
    (others : ∀ id ∈ ids, ∀ lease, s.leases.find? id = some lease → lease.orgID ≠ org)
    (deleting : t.phase ≠ .released) (released : phase ≠ .released)
    (stamped : ∀ entry, ¬ (phase = .stamped entry ∨ phase = .enqueued entry)) :
    Paired org s ((t.dropLeases ids).goTo phase) where
  requests id hm row hf hg hs := mem_append_left _ (paired.requests id hm row hf hg hs)
  leases _ id hm lease hf hs := by
    rcases mem_append.mp hm with old | new
    · exact paired.leases deleting id old lease hf hs
    · exact absurd hs (others id new lease hf)
  released hk := absurd hk released
  called := paired.called
  stamped entry hk := absurd hk (stamped entry)
  fresh entry hk := absurd (.inr hk) (stamped entry)

theorem Paired.dequeues (locked : Locked lockKey s t) (matched : Matched org s) (paired : Paired org s t)
    {leaseID} (call : t.call = .release leaseID) (phase : t.phase = .released)
    (deleted : ∀ lease, s.leases.find? leaseID = some lease → lease.orgID = org → leaseID ∈ t.leases.dropped) :
    Paired org s ((t.dropRequests
      (((s.view t).queue.find? leaseID).toList.map OrgConnectionQueueEntry.requestID)).goTo .dequeued) := by
  obtain ⟨nothing, own⟩ := paired.released phase
  refine ⟨?_, ?_, by simp, paired.called, by simp, by simp⟩
  · intro id hm row hf hg hs
    rcases mem_append.mp hm with old | new
    · rw [nothing] at old
      cases old
    obtain rfl := key_of_mem_find? new
    obtain ⟨lease, leaseFound, leaseOrg⟩ := matched.granted id row hf hg hs
    exact deleted lease leaseFound leaseOrg
  · intro _ id hm lease hf hs
    obtain rfl : leaseID = id := by
      have called := call.symm.trans (own id hm)
      cases called
      rfl
    obtain ⟨row, rowFound, -⟩ := matched.leased leaseID lease hf hs
    have visible : (s.view t).queue.find? leaseID = some row := by
      rw [locked.view_queue (by simp [phase]), Pending.find?_rest, nothing]
      simpa using rowFound
    refine mem_append_right _ (mem_map.mpr ⟨row, mem_toList.mpr visible, ?_⟩)
    exact key_of_find? visible

theorem paired_of_moves (locked : Locked lockKey s t) (matched : Matched org s) (paired : Paired org s t)
    (kept : ∀ id lease, s.leases.find? id = some lease → lease.orgID = org →
      (∀ now, t.phase = .requestsSwept org now → s.ownerExpired lease = false) ∧
      (∀ now, t.phase = .ownersSwept org now → s.ownerMissing now lease = false) ∧
      (t.phase = .released → t.call = .release id → id ∈ t.leases.dropped))
    (hv : Moves lockKey s t next) : Paired org s next := by
  cases hv with
  | finds _ phase | locks phase | times phase | selects _ phase | retries _ phase
  | leased _ phase | refuses _ phase | passes _ phase | heads phase | admits _ phase
  | creates phase | grants phase | grantsNone phase =>
    exact paired.goesOn rfl rfl rfl (by simp [phase]) (by simp) (by simp)
  | misses _ phase =>
    rcases phase with phase | ⟨orgID, now, phase⟩
    all_goals exact paired.goesOn rfl rfl rfl (by simp [phase]) (by simp) (by simp)
  | waits phase =>
    rcases phase with phase | ⟨seen, phase⟩
    all_goals exact paired.goesOn rfl rfl rfl (by simp [phase]) (by simp) (by simp)
  | @sweepsRequests orgID now phase =>
    have nothing := locked.early (by simp [phase])
    refine ⟨?_, ?_, by simp, paired.called, by simp, by simp⟩
    · intro id hm row hf hg
      have expired : id ∈ (s.view t).expiredRequests orgID now := by
        simpa [ConnectionTx.dropRequests, ConnectionTx.goTo, Pending.drop, nothing.1] using hm
      obtain ⟨other, visible, key⟩ := mem_map.mp expired
      obtain ⟨visible, isExpired⟩ := mem_filter.mp visible
      have hco := (locked.selected (by simp [phase]) (find?_eq_some.mpr ⟨visible, key⟩)).1
      cases hf.symm.trans hco
      simp [OrgConnectionQueueEntry.expiredAt, OrgConnectionQueueEntry.waiting, hg] at isExpired
    · intro _ id hm
      change id ∈ t.leases.dropped at hm
      rw [nothing.2] at hm
      cases hm
  | @sweepsOwners _ now phase =>
    refine paired.dropLeases (fun id swept lease hf hs => ?_) (by simp [phase]) (by simp) (by simp)
    obtain ⟨rfl, owner⟩ := locked.gone (by simp [phase]) swept hf
    obtain rfl := hs
    cases ((kept id lease hf rfl).1 now phase).symm.trans owner
  | @sweepsMissing _ now phase =>
    refine paired.dropLeases (fun id swept lease hf hs => ?_) (by simp [phase]) (by simp) (by simp)
    obtain ⟨rfl, owner⟩ := locked.gone (by simp [phase]) swept hf
    obtain rfl := hs
    cases ((kept id lease hf rfl).2.1 now phase).symm.trans owner
  | @stamps entry stamped clock call phase hs =>
    refine ⟨paired.requests, fun _ => paired.leases (by simp [phase]), by simp, paired.called, ?_, by simp⟩
    intro other hk
    obtain rfl : stamped = other := by simpa using hk
    exact hs.trans (paired.called entry clock call)
  | @enqueues entry phase fresh =>
    have nothing := locked.early (by simp [phase])
    refine ⟨paired.requests, fun _ => paired.leases (by simp [phase]), by simp, paired.called, ?_, ?_⟩
    · intro other hk
      obtain rfl : entry = other := by simpa using hk
      exact paired.stamped entry (.inl phase)
    · intro other hk
      obtain rfl : entry = other := by simpa using hk
      rw [locked.view_queue (by simp [phase]), Pending.find?_rest, nothing.1] at fresh
      simpa using fresh
  | @releases leaseID call phase =>
    have nothing := locked.early (by simp [phase])
    refine ⟨?_, by simp, fun _ => ⟨nothing.1, ?_⟩, paired.called, by simp, by simp⟩
    · intro id hm
      change id ∈ t.queue.dropped at hm
      rw [nothing.1] at hm
      cases hm
    · intro id hm
      change id ∈ t.leases.dropped ++ _ at hm
      rw [nothing.2] at hm
      rw [key_of_mem_find? hm]
      exact call
  | @dequeues leaseID call phase =>
    exact paired.dequeues locked matched call phase fun lease hf hs => (kept leaseID lease hf hs).2.2 phase call

theorem Matched.enqueue (matched : Matched org s) {entry}
    (fresh : s.queue.find? entry.requestID = none) (waits : entry.grantedAt = none) :
    Matched org { s with queue := s.queue.upsert entry } := by
  constructor
  · intro id row hf hg hs
    by_cases own : id = entry.requestID
    · subst own
      cases (find?_upsert _ entry).symm.trans hf
      exact absurd waits hg
    · exact matched.granted id row ((find?_upsert_of_ne _ own).symm.trans hf) hg hs
  · intro id lease hf hs
    obtain ⟨row, rowFound, hg, rowOrg⟩ := matched.leased id lease hf hs
    have other : id ≠ entry.requestID := by
      intro own
      subst own
      cases fresh.symm.trans rowFound
    exact ⟨row, (find?_upsert_of_ne _ other).trans rowFound, hg, rowOrg⟩

theorem Matched.grant (matched : Matched org s) {entry lease} (hsi : lease.requestID = entry.requestID)
    (sameOrg : lease.orgID = entry.orgID) (grants : entry.grantedAt ≠ none) :
    Matched org { s with queue := s.queue.upsert entry, leases := s.leases.upsert lease } := by
  have entryFound := find?_upsert s.queue entry
  have leaseFound := find?_upsert s.leases lease
  constructor
  · intro id row hf hg hs
    by_cases own : id = entry.requestID
    · subst own
      cases entryFound.symm.trans hf
      exact ⟨lease, by rw [← hsi]; exact leaseFound, sameOrg.trans hs⟩
    · obtain ⟨old, oldFound, oldOrg⟩ := matched.granted id row ((find?_upsert_of_ne _ own).symm.trans hf) hg hs
      have other : id ≠ lease.leaseID := fun eq => own (eq.trans hsi)
      exact ⟨old, (find?_upsert_of_ne _ other).trans oldFound, oldOrg⟩
  · intro id row hf hs
    by_cases own : id = entry.requestID
    · subst own
      rw [← hsi] at hf
      cases leaseFound.symm.trans hf
      exact ⟨entry, entryFound, grants, sameOrg.symm.trans hs⟩
    · have other : id ≠ lease.leaseID := fun eq => own (eq.trans hsi)
      obtain ⟨old, oldFound, hg, oldOrg⟩ := matched.leased id row ((find?_upsert_of_ne _ other).symm.trans hf) hs
      exact ⟨old, (find?_upsert_of_ne _ own).trans oldFound, hg, oldOrg⟩

theorem matched_rest (matched : Matched org s) (paired : Paired org s t) (deleting : t.phase ≠ .released)
    (grants : String → Nat) :
    Matched org ⟨t.queue.rest s.queue, t.leases.rest s.leases, s.cps, grants⟩ := by
  constructor
  · intro id row hf hg hs
    rw [Pending.find?_rest] at hf
    split at hf
    · cases hf
    rename_i kept
    obtain ⟨lease, leaseFound, leaseOrg⟩ := matched.granted id row hf hg hs
    have undeleted : id ∉ t.leases.dropped := fun dropped =>
      kept (paired.leases deleting id dropped lease leaseFound leaseOrg)
    exact ⟨lease, by rw [Pending.find?_rest, if_neg undeleted]; exact leaseFound, leaseOrg⟩
  · intro id lease hf hs
    rw [Pending.find?_rest] at hf
    split at hf
    · cases hf
    rename_i kept
    obtain ⟨row, rowFound, hg, rowOrg⟩ := matched.leased id lease hf hs
    have undeleted : id ∉ t.queue.dropped := fun dropped => kept (paired.requests id dropped row rowFound hg rowOrg)
    exact ⟨row, by rw [Pending.find?_rest, if_neg undeleted]; exact rowFound, hg, rowOrg⟩

theorem matched_view (locked : Locked lockKey s t) (matched : Matched org s) (paired : Paired org s t)
    (done : t.finish = some next) : Matched org (s.view t) := by
  have rest (deleting : t.phase ≠ .released) := matched_rest matched paired deleting (t.phase.grants s.grants)
  have entryPut := locked.entryPut
  have leasePut := locked.leasePut
  unfold ConnectionTables.view Pending.apply
  unfold ConnectionTx.finish at done
  split at done
  case h_1 request now seen phase =>
    rw [entryPut, leasePut, phase]
    rw [phase] at rest
    exact (rest (by simp)).grant rfl rfl (by simp)
  case h_4 entry phase =>
    rw [entryPut, leasePut, phase]
    rw [phase] at rest
    refine (rest (by simp)).enqueue ?_ (paired.stamped entry (.inr phase))
    rw [Pending.find?_rest, paired.fresh entry phase, ite_self]
  case h_6 => cases done
  all_goals
    rename_i phase
    rw [entryPut, leasePut, phase]
    rw [phase] at rest
    exact rest (by simp)

theorem Matched.single (matched : Matched org s) (op : ConnectionOp) : Matched org (s.single op).1 where
  granted id row hf hg hs := by
    rw [(single_leases op).1]
    exact matched.granted id row (find?_of_single op hf) hg hs
  leased id lease hf hs := by
    rw [(single_leases op).1] at hf
    obtain ⟨row, rowFound, hg, rowOrg⟩ := matched.leased id lease hf hs
    exact ⟨row, find?_single_of_granted op rowFound hg, hg, rowOrg⟩

theorem Paired.stable {d} (mine : Locked lockKey s t) (theirs : Locked lockKey s d)
    (paired : Paired org s d) (hne : ∀ k ∈ t.held, k ∉ d.held) : Paired org (s.view t) d := by
  have request (id : String) (hm : id ∈ d.queue.keys) :
      (s.view t).queue.find? id = s.queue.find? id :=
    Pending.find?_apply_of_not_mem fun puts => hne _ (mine.requests id puts) (theirs.requests id hm)
  have lease (id : String) (hm : id ∈ d.leases.keys) :
      (s.view t).leases.find? id = s.leases.find? id :=
    Pending.find?_apply_of_not_mem fun puts => hne _ (mine.leases id puts) (theirs.leases id hm)
  refine ⟨?_, ?_, paired.released, paired.called, paired.stamped, ?_⟩
  · intro id hm row hf
    rw [request id (mem_append_left _ hm)] at hf
    exact paired.requests id hm row hf
  · intro deleting id hm row hf
    rw [lease id (mem_append_left _ hm)] at hf
    exact paired.leases deleting id hm row hf
  intro entry phase
  have put : entry.requestID ∈ d.queue.keys := by
    simp [Pending.keys, theirs.entryPut, phase]
  rw [request _ put]
  exact paired.fresh entry phase

theorem Paired.single (paired : Paired org s t) (op : ConnectionOp) : Paired org (s.single op).1 t where
  requests id hm row hf := paired.requests id hm row (find?_of_single op hf)
  leases deleting id hm lease hf := by
    rw [(single_leases op).1] at hf
    exact paired.leases deleting id hm lease hf
  released := paired.released
  called := paired.called
  stamped := paired.stamped
  fresh entry phase := by
    have absent := paired.fresh entry phase
    cases hf : (s.single op).1.queue.find? entry.requestID with
    | none => rfl
    | some row => cases absent.symm.trans (find?_of_single op hf)

theorem Idle.paired (idle : Idle t) (called : ∀ entry clock, t.call = .enqueue entry clock →
    entry.grantedAt = none) : Paired org s t := by
  obtain ⟨queue, leases, begun | ⟨result, returned⟩⟩ := idle
  · constructor <;> simp_all [Pending.none]
  · constructor <;> simp_all [Pending.none]

theorem call_of_finish (done : t.finish = some next) : next.call = t.call := by
  unfold ConnectionTx.finish at done
  split at done <;> cases done <;> rfl

theorem call_of_abort (done : t.abort = some next) : next.call = t.call := by
  unfold ConnectionTx.abort at done
  split at done <;> cases done
  rfl

theorem matched_keeps : (admissions lockKey).Keeps (AllLocked lockKey) (LeasesKept org) (Matched org)
    (fun s _ => Paired org s) where
  start _ _ call _ _ kept := by
    refine (idle_start call).paired fun entry clock called => ?_
    subst called
    exact kept
  statement _ tx _ t _ hk hh kept hf hd :=
    paired_of_moves (hk.own tx t hf) hh.rows (hh.own tx t hf) (kept t hf) (moves_of_statement hd)
  commit _ tx t _ hk hh _ hf done := by
    have paired := hh.own tx t hf
    refine ⟨matched_view (hk.own tx t hf) hh.rows paired done, (idle_finish done).paired ?_⟩
    rw [call_of_finish done]
    exact paired.called
  stable _ tx t _ other d hk hh _ hf _ hfo hne := .stable (hk.own tx t hf) (hk.own other d hfo) (hh.own other d hfo) hne
  abort _ tx t _ _ hh _ hf done := by
    refine (idle_abort done).paired ?_
    rw [call_of_abort done]
    exact (hh.own tx t hf).called
  single db op rows ks _ hh _ hd := by
    have matched := hh.rows.single op
    rw [Option.some.inj hd] at matched
    exact matched
  unmoved db op rows ks tx t _ hh _ hd hf _ := by
    have paired := (hh.own tx t hf).single op
    rw [Option.some.inj hd] at paired
    exact paired

theorem granted_requests_leased {rows : ConnectionTables} {final : ConnectionDb}
    {steps : List ConnectionStep} (start : Matched org rows)
    (kept : (admissions lockKey).machine.Obeys (LeasesKept org) (.init rows) steps)
    (run : (admissions lockKey).machine.run (.init rows) steps = some final) : Matched org final.rows :=
  (Transactions.holds_of_obeys matched_keeps
    (fun _ _ _ => allLocked_step) (allLocked_init rows)
    (Transactions.holds_init start) kept run).rows

def orgRequest (requestID cp : String) : OrgConnectionQueueEntry := ⟨requestID, "org", cp, 1, "pg", 0, 9, none, none⟩

theorem granted_requests_leased_anew : ∃ final, (admissions fun _ => 0).machine.run (.init noConnections)
      ([.single (.heartbeat ⟨"b", .active, 1, none, none⟩), .single (.expire 2 3)] ++
        wholeCall 0 (.enqueue (orgRequest "r1" "a") 1) 2 1 ++ wholeCall 1 (.tryAcquire "r1" 1) 12 2 ++
        wholeCall 2 (.enqueue (orgRequest "r2" "a") 1) 2 3 ++ wholeCall 3 (.release "r1") 2 4 ++
        wholeCall 4 (.tryAcquire "r2" 1) 12 5) = some final ∧
    (final.rows.leases.find? "r1").isNone ∧ (final.rows.leases.find? "r2").isSome ∧ Matched "org" final.rows := by
  refine ⟨?final, ?run, ?released, ?leased, granted_requests_leased ⟨?_, ?_⟩ ?kept ?run⟩
  case run => rfl
  case released => rfl
  case leased => rfl
  case kept =>
    iterate 42
      refine .cons rfl ?_ ?_
      · first
        | trivial
        | rintro t ⟨⟩ id lease ⟨⟩
        | rintro t ⟨⟩ id lease _ -
          exact ⟨by rintro now ⟨⟩, by rintro now ⟨⟩, by rintro ⟨⟩ ⟨⟩ <;> exact .head _⟩
    trivial
  all_goals rintro id row ⟨⟩

theorem granted_request_left_behind : ∃ final row,
    (admissions fun _ => 0).machine.run (.init noConnections)
      ([.single (.heartbeat ⟨"a", .active, 1, none, none⟩)] ++ wholeCall 0 (.enqueue (orgRequest "r" "a") 1) 2 1 ++
        wholeCall 1 (.tryAcquire "r" 1) 12 2 ++ [.single (.expire 2 3)] ++
        wholeCall 2 (.tryAcquire "r" 1) 8 4) = some final ∧
    final.rows.queue.find? "r" = some row ∧ row.grantedAt ≠ none ∧ row.orgID = "org" ∧
    final.rows.leases.find? "r" = none := by
  exact ⟨_, _, rfl, rfl, by decide, rfl, rfl⟩

variable {limit : Int}

def swept? : ConnectionPhase → Option String
  | .ownersSwept orgID _ | .cleaned orgID _ => some orgID
  | .selected request _ | .unleased request _ | .atHead request _ _ => some request.orgID
  | _ => none

def admitted? : ConnectionPhase → Option String
  | .admitted request _ _ | .created request _ _ | .granted request _ _ => some request.orgID
  | _ => none

variable {phase : ConnectionPhase}

theorem org_of_swept (hk : swept? phase = some org) : org? phase = some org := by
  cases phase <;> first | exact hk | cases hk

theorem org_of_admitted (hk : admitted? phase = some org) : org? phase = some org := by
  cases phase <;> first | exact hk | cases hk

def orgLeases (org : String) (leases : ConnectionLeases) : Nat := leases.count fun lease => lease.orgID = org

structure HasRoom (org : String) (limit : Int) (s : ConnectionTables) (t : ConnectionTx) : Prop where
  swept : swept? t.phase = some org → ∀ id lease, (t.leases.rest s.leases).find? id = some lease →
    lease.orgID = org → s.ownerExpired lease = false
  room : admitted? t.phase = some org → (orgLeases org (t.leases.rest s.leases) : Int) < limit

/-- Every try-acquire that counts the leases of the organisation is called with its limit, and no
owner of one of its leases becomes expired while a try-acquire is between its sweep and its count. -/
def LimitKept (org : String) (limit : Int) (db : ConnectionDb) : ConnectionStep → Prop
  | .statement tx _ => ∀ t request now seen requestID max, db.txs tx = some t →
      t.phase = .atHead request now seen → request.orgID = org →
      t.call = .tryAcquire requestID max → max = limit
  | .single op => ∀ tx t, db.txs tx = some t → swept? t.phase = some org →
      ∀ id lease, (t.leases.rest db.rows.leases).find? id = some lease → lease.orgID = org →
        (db.rows.single op).1.ownerExpired lease = true → db.rows.ownerExpired lease = true
  | _ => True

theorem not_expired_of_sweep (locked : Locked lockKey s t) (unwritten : lease? t.phase = none) {id lease}
    (left : ((t.leases.drop ((s.view t).leasesOfExpiredOwners org)).rest s.leases).find? id = some lease)
    (hs : lease.orgID = org) : s.ownerExpired lease = false := by
  rw [Pending.find?_rest] at left
  split at left
  · cases left
  rename_i kept
  obtain ⟨undropped, unswept⟩ := not_or.mp (mt mem_append.mpr kept)
  by_contra expired
  -- an expired owner's lease is in the view, so the sweep has deleted it
  have visible : (s.view t).leases.find? id = some lease := by
    rw [locked.view_leases unwritten, Pending.find?_rest, if_neg undropped]
    exact left
  obtain ⟨hm, key⟩ := find?_eq_some.mp visible
  have owner : (s.view t).ownerExpired lease = true := by
    change s.ownerExpired lease = true
    simpa using expired
  refine unswept (mem_map.mpr ⟨lease, mem_filter.mpr ⟨hm, ?_⟩, key⟩)
  rw [owner, decide_eq_true hs]
  rfl

theorem active_eq_orgLeases (locked : Locked lockKey s t) (unwritten : lease? t.phase = none)
    (live : ∀ id lease, (t.leases.rest s.leases).find? id = some lease → lease.orgID = org →
      s.ownerExpired lease = false) :
    (s.view t).countActiveOrgConnectionLeases org = orgLeases org (t.leases.rest s.leases) := by
  unfold ConnectionTables.countActiveOrgConnectionLeases orgLeases
  rw [locked.view_leases unwritten]
  refine countP_congr fun lease hm => ?_
  have hf := find?_eq_some.mpr ⟨hm, rfl⟩
  have owner : (s.view t).ownerExpired lease = s.ownerExpired lease := rfl
  rw [owner]
  by_cases hs : lease.orgID = org
  · simp [live _ lease hf hs]
  · simp [hs]

theorem HasRoom.plain (swept : swept? phase = none)
    (admitted : admitted? phase = none) (hs : t.phase = phase) : HasRoom org limit s t where
  swept hk := by
    rw [hs, swept] at hk
    cases hk
  room hk := by
    rw [hs, admitted] at hk
    cases hk

theorem HasRoom.keeps (room : HasRoom org limit s t) (dropped : ∀ id ∈ t.leases.dropped, id ∈ next.leases.dropped)
    (swept : swept? next.phase = some org → swept? t.phase = some org)
    (admitted : admitted? next.phase = some org → admitted? t.phase = some org) :
    HasRoom org limit s next := by
  have sub (id : String) (lease : OrgConnectionLease)
      (hf : (next.leases.rest s.leases).find? id = some lease) :
      (t.leases.rest s.leases).find? id = some lease := by
    rw [Pending.find?_rest] at hf ⊢
    split at hf
    · cases hf
    · rename_i kept
      rw [if_neg fun old => kept (dropped id old)]
      exact hf
  constructor
  · intro hk id lease hf
    exact room.swept (swept hk) id lease (sub id lease hf)
  · intro hk
    have fewer : orgLeases org (next.leases.rest s.leases) ≤ orgLeases org (t.leases.rest s.leases) :=
      count_le_of_find? fun id lease _ => sub id lease
    have bound := room.room (admitted hk)
    omega

theorem hasRoom_of_moves (locked : Locked lockKey s t) (room : HasRoom org limit s t)
    (fixed : ∀ request now seen requestID max, t.phase = .atHead request now seen →
      request.orgID = org → t.call = .tryAcquire requestID max → max = limit) (hpos : 0 < limit)
    (hv : Moves lockKey s t next) : HasRoom org limit s next := by
  have kept (id : String) (old : id ∈ t.leases.dropped) : id ∈ t.leases.dropped := old
  cases hv with
  | finds | misses | leased | refuses | waits | stamps | times | locks | sweepsRequests | retries
  | enqueues | releases | dequeues => exact .plain rfl rfl rfl
  | @sweepsOwners _ _ phase =>
    refine ⟨fun hk id lease hf hs => ?_, nofun⟩
    cases hk
    exact not_expired_of_sweep locked (by simp [phase]) hf hs
  | sweepsMissing phase =>
    refine room.keeps (fun id => mem_append_left _) ?_ ?_
    · simp [phase, swept?]
    · simp [admitted?]
  | selects _ phase _ hs =>
    refine room.keeps kept ?_ ?_
    · simp [phase, swept?, hs]
    · simp [admitted?]
  | passes _ phase | heads phase =>
    refine room.keeps kept ?_ ?_
    · simp [phase, swept?]
    · simp [admitted?]
  | @admits requestID max request now seen call phase hc =>
    refine ⟨fun hk => (by cases hk), fun hk => ?_⟩
    have hs : request.orgID = org := Option.some.inj hk
    obtain rfl := fixed request now seen requestID max phase hs call
    have live := room.swept (by simp [phase, swept?, hs])
    have count := active_eq_orgLeases locked (by simp [phase]) live
    have below := hc hpos
    rw [hs, count] at below
    exact below
  | creates phase | grants phase | grantsNone phase =>
    refine room.keeps kept ?_ ?_
    · simp [swept?]
    · simp [phase, admitted?]

theorem orgLeases_rest_le (org : String) (t : ConnectionTx) (leases : ConnectionLeases) :
    orgLeases org (t.leases.rest leases) ≤ orgLeases org leases := by
  refine count_le_of_find? fun id lease _ hf => ?_
  rw [Pending.find?_rest] at hf
  split at hf
  · cases hf
  · exact hf

theorem orgLeases_commit (locked : Locked lockKey s t) (room : HasRoom org limit s t)
    (bound : (orgLeases org s.leases : Int) ≤ limit) : (orgLeases org (s.view t).leases : Int) ≤ limit := by
  have rest := orgLeases_rest_le org t s.leases
  cases puts : lease? t.phase with
  | none =>
    rw [locked.view_leases puts]
    omega
  | some lease =>
    have view : (s.view t).leases = (t.leases.rest s.leases).upsert lease := by
      simp only [ConnectionTables.view, Pending.apply, locked.leasePut, puts]
    have hc := count_upsert_le (t.leases.rest s.leases) lease fun lease => lease.orgID = org
    rw [view]
    unfold orgLeases at rest bound ⊢
    by_cases hs : lease.orgID = org
    · have admitted : admitted? t.phase = some org := by
        cases phase : t.phase <;> rw [phase] at puts <;> cases puts <;>
          simpa [admitted?, OrgConnectionQueueEntry.lease] using hs
      have below := room.room admitted
      unfold orgLeases at below
      have one := Bool.toNat_le (decide (lease.orgID = org))
      omega
    · simp only [hs, decide_false, Bool.toNat_false] at hc
      omega

theorem HasRoom.stable {d} (mine : Locked lockKey s t) (theirs : Locked lockKey s d)
    (room : HasRoom org limit s d) (hne : ∀ k ∈ t.held, k ∉ d.held) :
    HasRoom org limit (s.view t) d := by
  -- the lease that the commit adds is of another organisation: the lock of this one is taken
  have sub (hk : org? d.phase = some org) (id : String) (lease : OrgConnectionLease)
      (hs : lease.orgID = org) (hf : (d.leases.rest (s.view t).leases).find? id = some lease) :
      (d.leases.rest s.leases).find? id = some lease := by
    rw [Pending.find?_rest] at hf ⊢
    split at hf
    · cases hf
    rename_i kept
    rw [if_neg kept]
    rcases Pending.apply_cases hf with ⟨puts, -⟩ | ⟨-, old⟩
    · rw [mine.leasePut] at puts
      have org : org? t.phase = some org := by
        cases phase : t.phase <;> rw [phase] at puts <;> cases puts <;> simpa [OrgConnectionQueueEntry.lease] using hs
      exact absurd (theirs.org _ hk) (hne _ (mine.org _ org))
    · exact old
  constructor
  · intro hk id lease hf hs
    exact room.swept hk id lease (sub (org_of_swept hk) id lease hs hf) hs
  · intro hk
    have fewer : orgLeases org (d.leases.rest (s.view t).leases) ≤ orgLeases org (d.leases.rest s.leases) :=
      count_le_of_find? fun id lease hs => sub (org_of_admitted hk) id lease (of_decide_eq_true hs)
    have bound := room.room hk
    omega

theorem Idle.hasRoom (idle : Idle t) : HasRoom org limit s t := by
  obtain ⟨-, -, begun | ⟨result, returned⟩⟩ := idle
  · exact .plain rfl rfl begun
  · exact .plain rfl rfl returned

theorem limit_keeps (hpos : 0 < limit) : (admissions lockKey).Keeps (AllLocked lockKey)
    (LimitKept org limit) (fun s => (orgLeases org s.leases : Int) ≤ limit)
    (fun s _ => HasRoom org limit s) where
  start _ _ call _ _ _ := (idle_start call).hasRoom
  statement db tx _ t _ hk hh kept hf hd :=
    hasRoom_of_moves (hk.own tx t hf) (hh.own tx t hf)
      (fun request now seen requestID max => kept t request now seen requestID max hf) hpos
      (moves_of_statement hd)
  commit db tx t _ hk hh _ hf done :=
    ⟨orgLeases_commit (hk.own tx t hf) (hh.own tx t hf) hh.rows, (idle_finish done).hasRoom⟩
  stable db tx t _ other d hk hh _ hf _ hfo hne := (hh.own other d hfo).stable (hk.own tx t hf) (hk.own other d hfo) hne
  abort _ _ _ _ _ _ _ _ done := (idle_abort done).hasRoom
  single db op rows ks _ hh _ hd := by
    have leases : (db.rows.single op).1.leases = db.rows.leases := (single_leases op).1
    rw [Option.some.inj hd] at leases
    rw [leases]
    exact hh.rows
  unmoved db op rows ks tx t _ hh kept hd hf _ := by
    have leases : (db.rows.single op).1.leases = db.rows.leases := (single_leases op).1
    have expires := kept tx t hf
    rw [Option.some.inj hd] at leases expires
    have room := hh.own tx t hf
    constructor
    · intro hk id lease left hs
      rw [leases] at left
      have live := room.swept hk id lease left hs
      by_contra expired
      have before := expires hk id lease left hs (by simpa using expired)
      rw [live] at before
      cases before
    · intro hk
      rw [leases]
      exact room.room hk

theorem active_le_orgLeases (s : ConnectionTables) (org : String) :
    s.countActiveOrgConnectionLeases org ≤ orgLeases org s.leases := by
  refine countP_mono_left fun lease _ active => ?_
  simp only [Bool.and_eq_true] at active
  exact active.1

theorem org_connections_limited {rows : ConnectionTables} {final : ConnectionDb}
    {steps : List ConnectionStep} (positive : 0 < limit)
    (start : (orgLeases org rows.leases : Int) ≤ limit)
    (kept : (admissions lockKey).machine.Obeys (LimitKept org limit) (.init rows) steps)
    (run : (admissions lockKey).machine.run (.init rows) steps = some final) :
    (final.rows.countActiveOrgConnectionLeases org : Int) ≤ limit := by
  have hh := Transactions.holds_of_obeys (limit_keeps positive)
    (fun _ _ _ => allLocked_step) (allLocked_init rows)
    (Transactions.holds_init start) kept run
  have bound := hh.rows
  have active := active_le_orgLeases final.rows org
  omega

def limitRows : ConnectionTables where
  queue := ⟨[{ orgRequest "r1" "a" with grantedAt := some 1 }, orgRequest "r2" "b", orgRequest "r3" "b"], by decide⟩
  leases := ⟨[(orgRequest "r1" "a").lease 1], by decide⟩
  cps := ⟨[⟨"a", .active, 1, none, none⟩, ⟨"b", .active, 5, none, none⟩], by decide⟩
  grants _ := 0

theorem org_connections_limited_anew : ∃ final, (admissions fun _ => 0).machine.run (.init limitRows)
      ([.single (.expire 2 3)] ++ wholeCall 0 (.tryAcquire "r2" 1) 12 4 ++ wholeCall 1 (.release "r2") 2 5 ++
        wholeCall 2 (.tryAcquire "r3" 1) 12 6) = some final ∧
    final.rows.countActiveOrgConnectionLeases "org" = 1 ∧
    (final.rows.countActiveOrgConnectionLeases "org" : Int) ≤ 1 := by
  refine ⟨?final, ?run, ?count, org_connections_limited (by decide) (by decide) ?kept ?run⟩
  case run => rfl
  case count => rfl
  refine .cons rfl (fun _ _ hf => by cases hf) ?_
  iterate 32
    refine .cons rfl (by first | trivial | rintro t request now seen requestID max ⟨⟩ _ _ ⟨⟩ <;> rfl) ?_
  trivial

theorem org_connections_exceed_limit : ∃ final,
    (admissions fun _ => 0).machine.run (.init noConnections)
      ([.single (.heartbeat ⟨"a", .active, 1, none, none⟩), .single (.heartbeat ⟨"b", .active, 5, none, none⟩)] ++
        wholeCall 0 (.enqueue (orgRequest "r1" "a") 1) 2 1 ++ wholeCall 1 (.tryAcquire "r1" 1) 12 1 ++
        wholeCall 2 (.enqueue (orgRequest "r2" "b") 1) 2 1 ++
        [.start 3 (.tryAcquire "r2" 1)] ++ statements 3 5 1 ++ [.single (.expire 5 6)] ++ statements 3 7 1 ++
        [.commit 3, .single (.heartbeat ⟨"a", .active, 7, none, none⟩)]) = some final ∧
    final.rows.countActiveOrgConnectionLeases "org" = 2 := by
  exact ⟨_, rfl, rfl⟩

end Duckgres.Proof.Admission
