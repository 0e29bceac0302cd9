import Duckgres.Proof.Pool.Steps

namespace Duckgres.Proof.Pool
open Base Duckgres.Store Duckgres.Pool

variable {s t : PoolState} {id : Int} {ref : WorkerRef} {w old new : ManagedWorker}
  {phase after other : PoolPhase} {a : PoolStep}

theorem worker?_congr (workers : t.pool.workers = s.pool.workers) (births : t.births = s.births) :
    t.worker? ref = s.worker? ref := by
  simp [PoolState.worker?, workers, births]

theorem Rewrites.worker?_of_ne (rewrites : Rewrites s t id old new) (ne : ref.id ≠ id) :
    t.worker? ref = s.worker? ref := by
  simp [PoolState.worker?, rewrites.births, rewrites.others ref.id ne]

theorem Rewrites.worker?_self (rewrites : Rewrites s t ref.id old new)
    (hf : s.worker? ref = some w) : t.worker? ref = some new := by
  rw [worker?_eq_some, rewrites.births]
  exact ⟨(worker?_eq_some.mp hf).1, rewrites.rewritten⟩

theorem Rewrites.worker?_old (rewrites : Rewrites s t ref.id old new) (hf : s.worker? ref = some w) : w = old := by
  have hs := (worker?_eq_some.mp hf).2
  rw [rewrites.found] at hs
  exact (Option.some.inj hs).symm

theorem Removes.worker?_of_ne (removes : Removes s t id) (ne : ref.id ≠ id) : t.worker? ref = s.worker? ref := by
  simp [PoolState.worker?, removes.births, removes.others ref.id ne]

theorem Adopts.worker?_of_some (adopts : Adopts s t id new) (hf : s.worker? ref = some w) : t.worker? ref = some w := by
  obtain ⟨birth, hf⟩ := worker?_eq_some.mp hf
  have ne : ref.id ≠ id := by
    rintro rfl
    rw [adopts.absent] at hf
    cases hf
  rw [worker?_eq_some, adopts.births, adopts.others ref.id ne, Function.update_of_ne ne]
  exact ⟨birth, hf⟩

def Attached (s : PoolState) (phase : PoolPhase) : Prop :=
  ∀ ref, phase.pointer = some ref → ∃ w, s.worker? ref = some w ∧ (uses phase = some ref → Live w)

theorem Attached.of_pointer (free : phase.pointer = none) : Attached s phase :=
  fun ref pointer => by rw [free] at pointer; cases pointer

section
variable (hat : Attached s phase)
include hat

theorem Attached.congr (hs : ∀ ref, t.worker? ref = s.worker? ref) : Attached t phase :=
  fun ref pointer => by rw [hs]; exact hat ref pointer

theorem Attached.adopts (adopts : Adopts s t id new) : Attached t phase := by
  intro ref pointer
  obtain ⟨w, hf, live⟩ := hat ref pointer
  exact ⟨w, adopts.worker?_of_some hf, live⟩

theorem Attached.removes (removes : Removes s t id)
    (undisturbed : ∀ ref, phase.pointer = some ref → ref.id ≠ id) : Attached t phase := by
  intro ref pointer
  rw [removes.worker?_of_ne (undisturbed ref pointer)]
  exact hat ref pointer

theorem Attached.rewrites (rewrites : Rewrites s t id old new)
    (live : ∀ ref, uses phase = some ref → ref.id = id → Live old → Live new) : Attached t phase := by
  intro ref pointer
  obtain ⟨w, hf, wasLive⟩ := hat ref pointer
  by_cases hs : ref.id = id
  · subst hs
    obtain rfl := rewrites.worker?_old hf
    exact ⟨new, rewrites.worker?_self hf, fun used => live ref used rfl (wasLive used)⟩
  · rw [rewrites.worker?_of_ne hs]
    exact ⟨w, hf, wasLive⟩

theorem Attached.live (used : uses phase = some ref)
    (hf : s.worker? ref = some w) : Live w := by
  obtain ⟨w', hf', live⟩ := hat ref (pointer_of_uses used)
  rw [hf] at hf'
  cases hf'
  exact live used

end

theorem Live.congr (state : new.sharedState = old.sharedState) : Live old → Live new := by
  intro live
  unfold Live
  rwa [state]

theorem Attached.of_uses (used : uses phase = some ref) (hf : s.worker? ref = some w)
    (live : Live w) : Attached s phase := by
  intro ref' pointer
  rw [pointer_of_uses used] at pointer
  cases pointer
  exact ⟨w, hf, fun _ => live⟩

def Distinct (phase other : PoolPhase) : Prop :=
  ∀ ref ref', uses phase = some ref → uses other = some ref' → ref.id ≠ ref'.id

theorem Distinct.symm (distinct : Distinct phase other) : Distinct other phase :=
  fun ref ref' used used' hs => distinct ref' ref used' used hs.symm

def Spares (phase : PoolPhase) (a : PoolStep) (other : PoolPhase) : Prop :=
  ∀ id, phase.disturbs a = some id → ∀ ref, other.pointer = some ref → ref.id ≠ id

theorem attached_other (hv : PoolMoves s phase a t after) (hat : Attached s other)
    (distinct : Distinct phase other) (spares : Spares phase a other) : Attached t other := by
  cases hv with
  | frees | seeks | points | checks | astray => exact hat
  | shutsDown | claims | retiresClaimed | stores => exact hat.congr fun _ => worker?_congr rfl rfl
  | persists => exact hat.congr fun _ => worker?_congr (by rw [pool_persist]) (births_persist ..)
  | adopts adopts => exact hat.adopts adopts
  | overwrites _ rewrites _ _ state => exact hat.rewrites rewrites fun _ _ _ => .congr state
  | reserves _ rewrites _ _ _ live => exact hat.rewrites rewrites fun _ _ _ _ => live
  | touches _ _ _ rewrites _ _ live => exact hat.rewrites rewrites fun _ _ _ => live
  | reconnects _ _ rewrites _ _ live => exact hat.rewrites rewrites fun _ _ _ _ => live
  | counts _ rewrites _ _ state | takes rewrites _ _ _ _ state => exact hat.rewrites rewrites fun _ _ _ => .congr state
  | releases rewrites => exact hat.rewrites rewrites fun ref used hs => absurd hs.symm (distinct _ ref rfl used)
  | terminates rewrites _ _ state | refreshes rewrites _ _ _ state =>
    exact hat.rewrites rewrites fun _ _ _ => .congr state
  | retires _ disturbs _ _ removes
  | removes _ disturbs _ removes => exact hat.removes removes (spares _ disturbs)

theorem attached_own (hv : PoolMoves s phase a t after) (hat : Attached s phase) : Attached t after := by
  cases hv with
  | frees _ free | retiresClaimed _ free | overwrites _ _ _ _ _ _ free
  | retires _ _ _ _ _ free | removes _ _ _ _ free => exact .of_pointer free.pointer
  | shutsDown | seeks | terminates | refreshes | stores => exact .of_pointer rfl
  | claims _ _ _ _ pointer => exact .of_pointer pointer
  | points _ hf =>
    rintro _ ⟨⟩
    exact ⟨_, worker?_ref hf, nofun⟩
  | adopts adopts =>
    rintro _ ⟨⟩
    exact ⟨_, worker?_eq_some.mpr ⟨rfl, adopts.adopted⟩, nofun⟩
  | checks =>
    intro ref pointer
    exact hat ref pointer
  | astray pointer detached =>
    obtain ⟨w, hf, -⟩ := hat _ pointer
    rw [detached] at hf
    cases hf
  | reserves hf rewrites _ _ _ live _ goesOn => exact .of_uses goesOn.uses (rewrites.worker?_self hf) live
  | touches used _ hf rewrites _ _ live _ goesOn =>
    rcases goesOn with free | goesOn
    · exact .of_pointer free.pointer
    · exact .of_uses goesOn.uses (rewrites.worker?_self hf) (live (hat.live used hf))
  | reconnects hf _ rewrites _ _ live => exact .of_uses rfl (rewrites.worker?_self hf) live
  | counts hf rewrites _ _ state => exact .of_uses rfl (rewrites.worker?_self hf) (.congr state (hat.live rfl hf))
  | takes rewrites _ live _ _ state =>
    refine .of_uses rfl ?_ (.congr state live)
    exact rewrites.worker?_self (worker?_ref rewrites.found)
  | releases _ _ _ _ goesOn =>
    rcases goesOn with ⟨free, -⟩ | ⟨record, rfl, -⟩
    · exact .of_pointer free.pointer
    · exact .of_pointer rfl
  | persists _ _ _ used pointer =>
    intro ref pointer'
    rw [worker?_congr (by rw [pool_persist]) (births_persist ..), used]
    exact hat ref (pointer ▸ pointer')

theorem uses_of_pointer (free : phase.pointer = none) : uses phase = none := by
  cases used : uses phase with
  | none => rfl
  | some ref => rw [← pointer_of_uses used, free]

theorem Distinct.of_uses (free : uses phase = none) : Distinct phase other :=
  fun ref _ used => by rw [free] at used; cases used

theorem distinct_congr (distinct : Distinct phase other) (hs : uses after = uses phase) : Distinct after other :=
  fun ref ref' used used' => distinct ref ref' (hs ▸ used) used'

theorem distinct_own (hv : PoolMoves s phase a t after) (hat : Attached s phase)
    (attachedOther : Attached s other) (distinct : Distinct phase other)
    (spares : Spares phase a other) : Distinct after other := by
  cases hv with
  | frees _ free | retiresClaimed _ free | overwrites _ _ _ _ _ _ free
  | retires _ _ _ _ _ free | removes _ _ _ _ free => exact .of_uses (uses_of_pointer free.pointer)
  | shutsDown | seeks | terminates | refreshes | stores | points | adopts => exact .of_uses rfl
  | claims _ _ _ _ pointer => exact .of_uses (uses_of_pointer pointer)
  | checks | reconnects | counts => exact distinct_congr distinct rfl
  | astray pointer detached =>
    obtain ⟨w, hf, -⟩ := hat _ pointer
    rw [detached] at hf
    cases hf
  | reserves _ rewrites _ _ hun live _ goesOn =>
    intro ref ref' used used' hs
    rw [goesOn.uses] at used
    cases used
    -- the other call's worker would be idle
    obtain ⟨w, hfo, -⟩ := attachedOther ref' (pointer_of_uses used')
    have isOld : w = _ := (hs ▸ rewrites).worker?_old hfo
    exact hun (isOld ▸ attachedOther.live used' hfo)
  | touches used _ _ _ _ _ _ _ goesOn =>
    rcases goesOn with free | goesOn
    · exact .of_uses (uses_of_pointer free.pointer)
    · exact distinct_congr distinct (goesOn.uses.trans used.symm)
  | takes =>
    intro ref ref' used used' hs
    cases used
    exact spares _ rfl ref' (pointer_of_uses used') hs.symm
  | releases _ _ _ _ goesOn =>
    rcases goesOn with ⟨free, -⟩ | ⟨record, rfl, -⟩
    · exact .of_uses (uses_of_pointer free.pointer)
    · exact .of_uses rfl
  | persists _ _ _ used => exact distinct_congr distinct used

structure Apart (w : PoolWorld) : Prop where
  attached : ∀ call c, w.calls call = some c → Attached w.shared c.phase
  distinct : ∀ first second c d, first ≠ second → w.calls first = some c →
    w.calls second = some d → Distinct c.phase d.phase

theorem apart_init (s : PoolState) : Apart (.init s) where
  attached _ _ hf := by cases hf
  distinct _ _ _ _ _ hf := by cases hf

theorem apart_takes {w after} {step} (hne : Apart w)
    (undisturbed : Undisturbed w step) (takes : poolProgram.Takes w step after) : Apart after := by
  cases takes with
  | @start _ request =>
    have pointer : (poolProgram.start request).phase.pointer = none := by cases request <;> rfl
    refine ⟨World.forall_calls_set (.of_pointer pointer) fun other d _ => hne.attached other d, ?_⟩
    refine World.forall_pairs_set (fun _ _ => Distinct.symm) (fun other d _ _ => ?_) hne.distinct
    exact .of_uses (uses_of_pointer pointer)
  | @advance call a c _ _ hf hd =>
    obtain ⟨hv, -⟩ := moves_of_step hd
    have hat := hne.attached call c hf
    have distinct (other : Nat) (d : PoolCall) (ne : other ≠ call)
        (hfo : w.calls other = some d) : Distinct c.phase d.phase :=
      hne.distinct call other c d ne.symm hf hfo
    have spares (other : Nat) (d : PoolCall) (ne : other ≠ call)
        (hfo : w.calls other = some d) : Spares c.phase a d.phase :=
      fun id disturbs ref => undisturbed c id hf disturbs other d ref ne hfo
    constructor
    · exact World.forall_calls_set (attached_own hv hat) fun other d ne hfo =>
        attached_other hv (hne.attached other d hfo) (distinct other d ne hfo) (spares other d ne hfo)
    · exact World.forall_pairs_set (fun _ _ => Distinct.symm) (fun other d ne hfo =>
        distinct_own hv hat (hne.attached other d hfo) (distinct other d ne hfo) (spares other d ne hfo)) hne.distinct

end Duckgres.Proof.Pool
