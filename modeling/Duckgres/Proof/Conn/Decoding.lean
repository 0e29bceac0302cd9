import Duckgres.Proof.Conn.Formats

namespace Duckgres.Proof.Conn
open Base Duckgres.Conn Codec List

variable {codec : Codec} {t : Time}

structure ExactDate (codec : Codec) (t : Time) (day : Int) (data : Bytes) : Prop where
  encodes : codec.encodeDate (.time t) = some data
  counts : readInt 4 data = some (day - 10957, [])
  decodes : ∃ decoded, decodeDate data = some decoded ∧ decoded.unix = t.unix

theorem exactDate_iff {day : Int} (h : t.unix = 86400 * day) (high : day < 2 ^ 31) :
    (∃ data, ExactDate codec t day data) ↔ -2 ^ 31 + 10957 ≤ day := by
  constructor
  · rintro ⟨data, encodes, counts, -⟩
    have := readInt_bounds counts
    omega
  · intro low
    have read := @readInt_bigEndian 4 (day - 10957) [] (by omega) (by omega)
    rw [append_nil] at read
    refine ⟨_, by simp [encodeDate, h, pgEpochDays], read, _, by rw [decodeDate, read]; rfl, ?_⟩
    simp only [pgEpochDays]
    omega

structure ExactTimestamp (codec : Codec) (t : Time) (data : Bytes) : Prop where
  encodes : codec.encodeTimestamp (.time t) = some data
  counts : readInt 8 data = some (t.unixMicro - 946684800000000, [])
  decodes : ∃ decoded, decodeTimestamp data = some decoded ∧ decoded.unix = t.unix ∧ decoded.nanosecond = t.nanosecond

theorem exactTimestamp_iff (nano : t.nanosecond < 10 ^ 9) (micro : t.nanosecond % 1000 = 0)
    (high : t.unixMicro < 2 ^ 63) :
    (∃ data, ExactTimestamp codec t data) ↔ -2 ^ 63 + 946684800000000 ≤ t.unixMicro := by
  constructor
  · rintro ⟨data, -, counts, -⟩
    have := readInt_bounds counts
    omega
  · intro low
    have read := @readInt_bigEndian 8 (t.unixMicro - 946684800000000) [] (by omega) (by omega)
    rw [append_nil] at read
    have epoch : pgEpochMicros = 946684800000000 := by decide
    refine ⟨_, by rw [encodeTimestamp, epoch], read, ⟨t.unix, t.nanosecond, 0⟩, ?_, rfl, rfl⟩
    rw [decodeTimestamp, read]
    have parts := Int.mul_tdiv_add_tmod (t.unixMicro - 946684800000000) 1000000
    have below := Int.tmod_lt_of_pos (t.unixMicro - 946684800000000) (b := 1000000) (by decide)
    have above := Int.lt_tmod_of_pos (t.unixMicro - 946684800000000) (b := 1000000) (by decide)
    simp only [Option.map_some, pgEpochUnix]
    have micros : t.unixMicro = t.unix * 1000000 + (t.nanosecond / 1000 : Nat) := rfl
    split
    · simp only [Option.some.injEq, Time.mk.injEq, and_true]
      omega
    · simp only [Option.some.injEq, Time.mk.injEq, and_true]
      omega

theorem times_exact_iff (codec : Codec) (t : Time) : (∀ day, t.unix = 86400 * day → -2 ^ 31 ≤ day → day < 2 ^ 31 →
      ((∃ data, ExactDate codec t day data) ↔ -2 ^ 31 + 10957 ≤ day)) ∧
    (t.nanosecond < 10 ^ 9 → t.nanosecond % 1000 = 0 → -2 ^ 63 ≤ t.unixMicro → t.unixMicro < 2 ^ 63 →
      ((∃ data, ExactTimestamp codec t data) ↔ -2 ^ 63 + 946684800000000 ≤ t.unixMicro)) :=
  ⟨fun _ midnight _ => exactDate_iff midnight, fun nano micro _ => exactTimestamp_iff nano micro⟩

theorem times_exact_dayBefore1970 : (∃ data, ExactDate plainCodec ⟨-86400, 0, 0⟩ (-1) data) ∧
    ∃ data, ExactTimestamp plainCodec ⟨-86400, 1000, 0⟩ data :=
  ⟨((times_exact_iff plainCodec ⟨-86400, 0, 0⟩).1 (-1) rfl (by decide) (by decide)).mpr (by decide),
    ((times_exact_iff plainCodec ⟨-86400, 1000, 0⟩).2 (by decide) rfl (by decide) (by decide)).mpr (by decide)⟩

theorem first_times_wrapped : (plainCodec.encodeDate (.time ⟨86400 * -2147483646, 0, 0⟩) = some [127, 255, 213, 53] ∧
      decodeDate [127, 255, 213, 53] = some ⟨86400 * 2147483650, 0, 0⟩) ∧
    plainCodec.encodeTimestamp (.time ⟨-9223372022400, 0, 0⟩) = some [127, 252, 163, 2, 34, 90, 128, 0] ∧
      decodeTimestamp [127, 252, 163, 2, 34, 90, 128, 0] = some ⟨9223372051309, 551616000, 0⟩ := by
  decide

variable {element : Oid} {elements : List Value}

end Duckgres.Proof.Conn
