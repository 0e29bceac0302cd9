import Duckgres.Auth.RateLimit
import Mathlib.Algebra.BigOperators.Finprod
import Mathlib.Algebra.BigOperators.Group.Finset.Basic
import Mathlib.Tactic

/-!
# The rate limiter and its history

A history lists the calls with their times, newest first.
-/

namespace Duckgres.Proof.Auth
open Duckgres.Auth RateLimiter Function
open List hiding next

variable {ι : Type*} [DecidableEq ι] (cfg : RateLimitConfig)

def bannedBy : List Nat → Int
  | [] => 0
  | f :: older =>
    if cfg.maxFailedAttempts ≤ countAfter (f - cfg.failedAttemptWindow) (f :: older) then f + cfg.banDuration
    else bannedBy older

def opened (e : Event ι) (answer : Option Answer) (connections : List ι) : List ι :=
  match e with
  | .registerConnection ip => if answer = some (.bool true) then ip :: connections else connections
  | .unregisterConnection ip => connections.erase ip
  | _ => connections

def failed (now : Nat) (e : Event ι) (failures : ι → List Nat) : ι → List Nat :=
  match e with
  | .recordFailedAuth ip => Function.update failures ip (now :: failures ip)
  | .recordSuccessfulAuth ip => Function.update failures ip []
  | _ => failures

structure Tracks (now : Nat) (r : IpRecord) (conns : Nat) (failures : List Nat) : Prop where
  conns : r.activeConns = conns
  recent : ∀ start, now - cfg.failedAttemptWindow ≤ start →
    countAfter start r.failedAttempts = countAfter start failures
  banned : r.bannedUntil = bannedBy cfg failures ∨ r.bannedUntil = 0 ∧ bannedBy cfg failures < now

structure Follows (now : Nat) (s : RateLimiter ι) (connections : List ι) (failures : ι → List Nat) : Prop where
  total : s.totalActiveConns = connections.length
  tracks : ∀ ip, Tracks cfg now (s.record ip) (connections.count ip) (failures ip)
  bounded : 0 < cfg.maxConnections → connections.length ≤ cfg.maxConnections
  each : ∀ ip, 0 < cfg.maxConnectionsPerIP → connections.count ip ≤ cfg.maxConnectionsPerIP

variable {cfg} {now later : Nat} {r : IpRecord} {n : Nat} {fs : List Nat}

section
variable (tracks : Tracks cfg now r n fs)
include tracks

theorem Tracks.mono (le : now ≤ later) : Tracks cfg later r n fs where
  conns := tracks.conns
  recent start h := tracks.recent start (by omega)
  banned := tracks.banned.imp_right (And.imp_right (by omega))

theorem Tracks.isBanned : r.isBanned now = (now < bannedBy cfg fs : Bool) := by
  have h := tracks.banned
  rw [Bool.eq_iff_iff]
  simp only [IpRecord.isBanned, Bool.and_eq_true, decide_eq_true_eq]
  omega

theorem Tracks.bannedUntil (banned : r.isBanned now) :
    r.bannedUntil = bannedBy cfg fs := by
  have h := tracks.banned
  simp only [IpRecord.isBanned, Bool.and_eq_true, decide_eq_true_eq] at banned
  omega

theorem Tracks.expire : Tracks cfg now (r.expire cfg now) n fs where
  conns := tracks.conns
  recent start h := by
    rw [← tracks.recent start h]
    simp only [countAfter, IpRecord.expire, countP_filter]
    refine countP_congr fun t _ => ?_
    simp only [Bool.and_eq_true, decide_eq_true_eq]
    omega
  banned := by
    have h := tracks.banned
    simp only [IpRecord.expire]
    split <;> omega

theorem Tracks.fail : Tracks cfg now (r.fail cfg now).1 n (now :: fs) ∧
      (r.fail cfg now).2 = decide (cfg.maxFailedAttempts ≤ countAfter (now - cfg.failedAttemptWindow) (now :: fs)) := by
  have count (start) (h : now - cfg.failedAttemptWindow ≤ start) :
      countAfter start (r.failedAttempts ++ [now]) = countAfter start (now :: fs) := by
    have recent := tracks.recent start h
    simp only [countAfter, countP_append, countP_cons, countP_nil] at recent ⊢
    omega
  simp only [IpRecord.fail, count _ le_rfl]
  by_cases many : cfg.maxFailedAttempts ≤ countAfter (now - cfg.failedAttemptWindow) (now :: fs)
  · simp only [many, if_true, decide_true, and_true]
    exact ⟨tracks.conns, count, .inl (by simp [bannedBy, many])⟩
  · simp only [many, if_false, decide_false, and_true]
    exact ⟨tracks.conns, count, by simpa [bannedBy, many] using tracks.banned⟩

end

theorem bannedBy_le (times : ∀ f ∈ fs, f ≤ now) : bannedBy cfg fs = 0 ∨ bannedBy cfg fs ≤ now + cfg.banDuration := by
  induction fs with
  | nil => exact .inl rfl
  | cons f older ih =>
    rw [bannedBy]
    split
    · have := times f (by simp)
      exact .inr (by omega)
    · exact ih fun g hg => times g (by simp [hg])

theorem lt_bannedBy (ordered : fs.Pairwise (· ≥ ·)) (times : ∀ f ∈ fs, f ≤ now) :
    now < bannedBy cfg fs ↔ ∃ f older, f :: older <:+ fs ∧ f ≤ now ∧ now < f + cfg.banDuration ∧
      cfg.maxFailedAttempts ≤ countAfter (f - cfg.failedAttemptWindow) (f :: older) := by
  induction fs with
  | nil => simp [bannedBy]
  | cons f older ih =>
    obtain ⟨first, rest⟩ := pairwise_cons.mp ordered
    have last : f ≤ now := times f (by simp)
    have earlier : bannedBy cfg older = 0 ∨ bannedBy cfg older ≤ f + cfg.banDuration := bannedBy_le first
    simp only [suffix_cons_iff, or_and_right, exists_or, ← ih rest fun g hg => times g (by simp [hg]),
      List.cons.injEq, and_assoc, exists_eq_left, exists_and_left]
    rw [bannedBy]
    split <;> omega

section
variable {s s' : RateLimiter ι} {l : List ι} {fails : ι → List Nat} {e : Event ι} {ip : ι}

@[simp]
theorem record_set (ip j : ι) (r : Option IpRecord) (total : Int) :
    (s.set ip r total).record j = if j = ip then r.getD {} else s.record j := by
  by_cases hs : j = ip <;> simp [RateLimiter.set, record, hs]

@[simp]
theorem record_getOrCreateRecord (ip j : ι) : (s.getOrCreateRecord ip).record j = s.record j := by
  rw [getOrCreateRecord, record_set]
  split <;> simp_all

omit [DecidableEq ι] in
theorem record_map {f : IpRecord → IpRecord} (fresh : f {} = {}) (ip : ι) :
    ((s.records ip).map f).getD {} = f (s.record ip) := by
  rw [record]
  cases s.records ip <;> simp [fresh]

theorem record_cleanup (ip : ι) : (s.next cfg now .cleanup).1.record ip = (s.record ip).expire cfg now := by
  simp only [next, record]
  cases s.records ip with
  | none => simp [IpRecord.expire]
  | some r =>
    by_cases empty : (r.expire cfg now).isEmpty
    · obtain ⟨⟨attempts, ban⟩, conns⟩ := by simpa only [IpRecord.isEmpty, Bool.and_eq_true] using empty
      cases h : r.expire cfg now
      simp_all
    · simp [empty]

theorem Follows.mono (follows : Follows cfg now s l fails) (le : now ≤ later) : Follows cfg later s l fails :=
  { follows with tracks := fun ip => (follows.tracks ip).mono le }

theorem Follows.getOrCreateRecord (follows : Follows cfg now s l fails) :
    Follows cfg now (s.getOrCreateRecord ip) l fails :=
  { follows with total := follows.total, tracks := by simpa using follows.tracks }

section
variable (hfw : Follows cfg now s l fails)
include hfw

theorem Follows.verdict (ip : ι) : s.verdict cfg now ip =
    if 0 < cfg.maxConnections ∧ cfg.maxConnections ≤ l.length then .full
    else if now < bannedBy cfg (fails ip) then .banned
    else if 0 < cfg.maxConnectionsPerIP ∧ cfg.maxConnectionsPerIP ≤ l.count ip then .busy else .free := by
  simp [RateLimiter.verdict, hfw.total, (hfw.tracks ip).isBanned, (hfw.tracks ip).conns]

theorem Follows.isBanned (ip : ι) :
    (s.next cfg now (.isBanned ip)).2 = some (.bool (now < bannedBy cfg (fails ip))) := by
  rw [← (hfw.tracks ip).isBanned, next, record]
  cases s.records ip <;> rfl

theorem Follows.set {r l' fails' total} (size : total = l'.length)
    (others : ∀ j ≠ ip, l'.count j = l.count j ∧ fails' j = fails j)
    (tracks : Tracks cfg now (r.getD {}) (l'.count ip) (fails' ip))
    (bounded : 0 < cfg.maxConnections → l'.length ≤ cfg.maxConnections)
    (each : 0 < cfg.maxConnectionsPerIP → l'.count ip ≤ cfg.maxConnectionsPerIP) :
    Follows cfg now (s.set ip r total) l' fails' := by
  refine ⟨size, fun j => ?_, bounded, fun j => ?_⟩ <;> by_cases hs : j = ip
  · subst hs
    simpa using tracks
  · simpa [hs, others j hs] using hfw.tracks j
  · exact hs ▸ each
  · exact (others j hs).1 ▸ hfw.each j

end

theorem Follows.next (follows : Follows cfg now s l fails) (paired : ∀ ip, e = .unregisterConnection ip → ip ∈ l) :
    Follows cfg now (s.next cfg now e).1 (opened e (s.next cfg now e).2 l) (failed now e fails) := by
  cases e with
  | checkConnection ip =>
    simp only [RateLimiter.next, RateLimiter.checkConnection]
    cases s.verdict cfg now ip
    case full => exact follows
    all_goals exact follows.getOrCreateRecord
  | registerConnection ip =>
    simp only [RateLimiter.next, opened, failed]
    cases verdict : s.verdict cfg now ip
    case free =>
      simp only [RateLimiter.registerConnection, verdict]
      rw [follows.verdict] at verdict
      refine follows.set (by simp [follows.total]) (fun j other => ⟨count_cons_of_ne other.symm, rfl⟩)
        ⟨?_, (follows.tracks ip).recent, (follows.tracks ip).banned⟩ ?_ ?_
      · simp [(follows.tracks ip).conns]
      · grind
      · grind
    case full => simpa [RateLimiter.registerConnection, verdict] using follows
    all_goals simpa [RateLimiter.registerConnection, verdict] using follows.getOrCreateRecord
  | unregisterConnection ip =>
    have length : (l.erase ip).length = (l.length - 1 : Int) := by grind
    have count : (l.erase ip).count ip = (l.count ip - 1 : Int) := by grind
    have total := follows.total
    have bounded := follows.bounded
    have each := follows.each ip
    simp only [opened]
    refine follows.set (by omega) (fun j other => ⟨count_erase_of_ne other, rfl⟩) ?_ (by omega) (by omega)
    rw [record_map rfl]
    refine ⟨?_, (follows.tracks ip).recent, (follows.tracks ip).banned⟩
    simp only [IpRecord.unregister, (follows.tracks ip).conns]
    omega
  | recordFailedAuth ip =>
    refine follows.set follows.total (fun j other => ⟨rfl, update_of_ne other ..⟩) ?_ follows.bounded (follows.each ip)
    simpa [failed, opened] using (follows.tracks ip).fail.1
  | recordSuccessfulAuth ip =>
    refine follows.set follows.total (fun j other => ⟨rfl, update_of_ne other ..⟩) ?_ follows.bounded (follows.each ip)
    rw [record_map rfl, failed, update_self]
    exact ⟨(follows.tracks ip).conns, fun _ _ => rfl, .inl rfl⟩
  | isBanned => exact follows
  | cleanup => exact { follows with tracks := fun ip => record_cleanup ip ▸ (follows.tracks ip).expire }

theorem answer_eq (hfw : Follows cfg now s l fails) (hfw' : Follows cfg now s' l fails) :
    (s.next cfg now e).2 = (s'.next cfg now e).2 := by
  cases e with
  | checkConnection ip =>
    have hs : s.verdict cfg now ip = s'.verdict cfg now ip := by rw [hfw.verdict, hfw'.verdict]
    simp only [next, RateLimiter.checkConnection, ← hs]
    cases verdict : s.verdict cfg now ip
    case banned =>
      rw [(hfw.tracks ip).bannedUntil, (hfw'.tracks ip).bannedUntil]
      · grind [hfw.verdict ip, (hfw'.tracks ip).isBanned]
      · grind [hfw.verdict ip, (hfw.tracks ip).isBanned]
    all_goals rfl
  | registerConnection =>
    simp only [next, RateLimiter.registerConnection, hfw.verdict, hfw'.verdict]
    split <;> rfl
  | recordFailedAuth ip => simp [next, (hfw.tracks ip).fail.2, (hfw'.tracks ip).fail.2]
  | isBanned => rw [hfw.isBanned, hfw'.isBanned]
  | _ => rfl

end

section
variable (cfg)

def after : List (Nat × Event ι) → RateLimiter ι
  | [] => {}
  | (now, e) :: past => ((after past).next cfg now e).1

def answers : List (Nat × Event ι) → List Answer
  | [] => []
  | (now, e) :: past => ((after cfg past).next cfg now e).2.toList ++ answers past

def connections : List (Nat × Event ι) → List ι
  | [] => []
  | (now, e) :: past => opened e ((after cfg past).next cfg now e).2 (connections past)

def failures : List (Nat × Event ι) → ι → List Nat
  | [] => fun _ => []
  | (now, e) :: past => failed now e (failures past)

def isCleanup : Event ι → Bool
  | .cleanup => true
  | _ => false

def withoutCleanups (past : List (Nat × Event ι)) : List (Nat × Event ι) := past.filter (!isCleanup ·.2)

def Paired : List (Nat × Event ι) → Prop
  | [] => True
  | (_, e) :: past => (∀ ip, e = .unregisterConnection ip → ip ∈ connections cfg past) ∧ Paired past

end

theorem failures_sublist (past : List (Nat × Event ι)) (ip : ι) : (failures past ip).Sublist (past.map Prod.fst) := by
  induction past with
  | nil => exact .slnil
  | cons call past ih =>
    obtain ⟨now, ⟨⟩⟩ := call
    case recordFailedAuth j =>
      simp only [failures, failed, update_apply]
      split
      next hs => exact hs ▸ ih.cons_cons now
      next => exact ih.cons now
    case recordSuccessfulAuth j =>
      simp only [failures, failed, update_apply]
      split
      next => simp
      next => exact ih.cons now
    all_goals exact ih.cons now

section
variable {past : List (Nat × Event ι)} (ordered : (past.map Prod.fst).Pairwise (· ≥ ·)) (paired : Paired cfg past)
include ordered paired

theorem follows_history (times : ∀ call ∈ past, call.1 ≤ now) :
    Follows cfg now (after cfg past) (connections cfg past) (failures past) := by
  induction past generalizing now with
  | nil => exact ⟨rfl, fun _ => ⟨rfl, fun _ _ => rfl, .inl rfl⟩, by grind [connections], by grind [connections]⟩
  | cons call past ih =>
    obtain ⟨first, rest⟩ := pairwise_cons.mp ordered
    have hfw := ih rest paired.2 (by simpa using first)
    exact (hfw.next paired.1).mono (times call (by simp))

theorem withoutCleanups_eq : answers cfg (withoutCleanups past) = answers cfg past ∧
      connections cfg (withoutCleanups past) = connections cfg past ∧
      failures (withoutCleanups past) = failures past ∧ Paired cfg (withoutCleanups past) := by
  induction past with
  | nil => exact ⟨rfl, rfl, rfl, trivial⟩
  | cons call past ih =>
    obtain ⟨now, e⟩ := call
    obtain ⟨first, rest⟩ := pairwise_cons.mp ordered
    obtain ⟨hs, open', failed', paired'⟩ := ih rest paired.2
    have sublist : (withoutCleanups past).Sublist past := filter_sublist
    have times : ∀ call ∈ past, call.1 ≤ now := by simpa using first
    have hfw := follows_history rest paired.2 times
    have hfw' := follows_history (rest.sublist (sublist.map _)) paired' fun call mem => times call (sublist.subset mem)
    rw [open', failed'] at hfw'
    by_cases cleanup : isCleanup e
    · cases e
      case cleanup => exact ⟨hs, open', failed', paired'⟩
      all_goals cases cleanup
    · have kept : withoutCleanups ((now, e) :: past) = (now, e) :: withoutCleanups past := by
        simp [withoutCleanups, cleanup]
      simp only [kept, answers, connections, failures, Paired, hs, open', failed', answer_eq hfw' hfw]
      exact ⟨trivial, trivial, trivial, paired.1, paired'⟩

theorem limiter_history {s} (run : after cfg past = s) :
    -- the counts are those of the open connections, within the bounds
    s.totalActiveConns = ∑ᶠ ip, (s.record ip).activeConns ∧ s.totalActiveConns = (connections cfg past).length ∧
    (∀ ip, (s.record ip).activeConns = (connections cfg past).count ip) ∧
    (0 < cfg.maxConnections → s.totalActiveConns ≤ cfg.maxConnections) ∧
    (∀ ip, 0 < cfg.maxConnectionsPerIP → (s.record ip).activeConns ≤ cfg.maxConnectionsPerIP) ∧
    -- an address is banned for a while after one failure too many
    (∀ ip t, (∀ call ∈ past, call.1 ≤ t) → ((s.next cfg t (.isBanned ip)).2 = some (.bool true) ↔
      ∃ f older, f :: older <:+ failures past ip ∧ f ≤ t ∧ t < f + cfg.banDuration ∧
        cfg.maxFailedAttempts ≤ countAfter (f - cfg.failedAttemptWindow) (f :: older))) ∧
    answers cfg (withoutCleanups past) = answers cfg past ∧
    connections cfg (withoutCleanups past) = connections cfg past ∧
    failures (withoutCleanups past) = failures past ∧ Paired cfg (withoutCleanups past) := by
  subst run
  obtain ⟨last, times⟩ : ∃ last, ∀ call ∈ past, call.1 ≤ last :=
    ⟨(past.map Prod.fst).sum, fun call mem => List.le_sum_of_mem (List.mem_map_of_mem mem)⟩
  have hfw := follows_history ordered paired times
  have conns (ip) := (hfw.tracks ip).conns
  refine ⟨?_, hfw.total, conns, hfw.total ▸ hfw.bounded, fun ip => conns ip ▸ hfw.each ip, ?_,
    withoutCleanups_eq ordered paired⟩
  · rw [finsum_eq_sum_of_support_subset (s := (connections cfg past).toFinset)]
    · simp [conns, hfw.total, ← Nat.cast_sum, List.sum_toFinset_count_eq_length]
    · intro ip
      simp [conns, List.count_eq_zero]
  · intro ip t times
    have sublist := failures_sublist past ip
    rw [(follows_history ordered paired times).isBanned, Option.some_inj, Answer.bool.injEq, decide_eq_true_iff,
      lt_bannedBy (ordered.sublist sublist)]
    intro f mem
    obtain ⟨call, called, rfl⟩ := List.mem_map.mp (sublist.subset mem)
    exact times call called

end

def strict : RateLimitConfig := ⟨2, 4, 10, 1, 1, fun _ => ""⟩

def failedTwice : List (Nat × Event Nat) :=
  [(7, .unregisterConnection 0), (6, .cleanup), (5, .recordFailedAuth 0), (3, .recordFailedAuth 0),
    (1, .registerConnection 0)]

theorem limiter_history_banned : ((after strict failedTwice).next strict 14 (.isBanned 0)).2 = some (.bool true) := by
  refine ((limiter_history ?_ ?_ rfl).2.2.2.2.2.1 0 14 ?_).mpr ⟨5, [3], ?_, ?_⟩
  · decide
  · refine ⟨?_, ?_, ?_, ?_, ?_, trivial⟩ <;> rintro ip ⟨⟩
    decide
  · decide
  · decide
  · decide

end Duckgres.Proof.Auth
