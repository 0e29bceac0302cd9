import Duckgres.Conn.Framing

namespace Duckgres.Proof.Conn
open Base Duckgres.Conn List Function Int

theorem readMessage_writeMessage {message : UInt8 × Bytes} (fits : message.2.length + 4 < 2 ^ 31) (rest : Bytes) :
    readMessage (writeMessage message ++ rest) = .ok (message, rest) := by
  obtain ⟨msgType, body⟩ := message
  replace fits : body.length + 4 < 2 ^ 31 := fits
  have size : bodySize (body.length + 4) = body.length := by
    rw [bodySize, add_sub_cancel_right]
    exact bmod_eq_of_le_mul_two (by omega) (by omega)
  have read : readInt 4 (bigEndian 4 (body.length + 4) ++ (body ++ rest)) =
    some ((body.length : Int) + 4, body ++ rest) :=
    readInt_bigEndian _ (by omega) (by omega)
  simp only [writeMessage, cons_append, append_assoc, readMessage, read, size]
  cases body with
  | nil => simp
  | cons b body => simp; omega

theorem readMessages_writeMessage {messages : List (UInt8 × Bytes)}
    (fits : ∀ message ∈ messages, message.2.length + 4 < 2 ^ 31)
    (rest : Bytes) : readMessages messages.length (messages.flatMap writeMessage ++ rest) = .ok (messages, rest) := by
  induction messages with
  | nil => rfl
  | cons message messages ih =>
    obtain ⟨first, later⟩ := forall_mem_cons.mp fits
    simp [readMessages, readMessage_writeMessage first, ih later]

theorem bodySize_eq {length} (bounds : -256 ^ 4 ≤ 2 * length ∧ 2 * length < 256 ^ 4) :
    bodySize length = length - 4 ∧ -2 ^ 31 + 4 ≤ length ∨ bodySize length = length - 4 + 2 ^ 32 ∧
      length < -2 ^ 31 + 4 := by
  simp only [bodySize, bmod_def]
  split <;> omega

theorem messages_read (messages : List (UInt8 × Bytes)) (fits : ∀ message ∈ messages, message.2.length + 4 < 2 ^ 31)
    (rest stream : Bytes) :
    readMessages messages.length (messages.flatMap writeMessage ++ rest) = .ok (messages, rest) ∧
    (readMessage stream ≠ .panic ↔ ∀ length rest, readInt 4 stream.tail = some (length, rest) →
      4 ≤ length ∨ length < -2 ^ 31 + 4) := by
  refine ⟨readMessages_writeMessage fits rest, ?_⟩
  cases stream with
  | nil => simp [readMessage, readInt]
  | cons msgType stream =>
    simp only [readMessage, List.tail_cons]
    cases read : readInt 4 stream with
    | none => simp
    | some header =>
      obtain ⟨length, rest⟩ := header
      have bounds := readInt_bounds read
      have sizes := bodySize_eq bounds
      have single : (∀ other later, some (length, rest) = some (other, later) → 4 ≤ other ∨ other < -2 ^ 31 + 4) ↔
          4 ≤ length ∨ length < -2 ^ 31 + 4 :=
        ⟨fun all => all _ _ rfl, fun hh _ _ hs => by cases hs; exact hh⟩
      rw [single]
      dsimp only
      split
      · exact iff_of_false (fun fine => fine rfl) (by omega)
      · rename_i hpos
        refine iff_of_true ?_ (by omega)
        split
        · split <;> simp
        · simp

def pipelined : List (UInt8 × Bytes) :=
  [(80, 0 :: Execution.utf8 "SELECT 1".toList ++ [0, 0, 0]), (66, List.replicate 8 0),
    (69, List.replicate 5 0), (83, [])]

theorem messages_read_sync : readMessages 4 (pipelined.flatMap writeMessage ++ [88]) = .ok (pipelined, [88]) ∧
    (readMessage [83, 0, 0, 0, 4] ≠ .panic ↔ ∀ length rest, readInt 4 [(0 : UInt8), 0, 0, 4] = some (length, rest) →
      4 ≤ length ∨ length < -2 ^ 31 + 4) :=
  messages_read pipelined (by decide) [88] [83, 0, 0, 0, 4]

theorem zero_length_panics : readMessage [81, 0, 0, 0, 0] = .panic := by decide

variable {data rest s body : Bytes} {params : Params} {pairs : List (Bytes × Bytes)} {n : Nat}

theorem cstring_append (free : 0 ∉ s) : cstring (s ++ 0 :: rest) = some (s, rest) := by
  induction s with
  | nil => rfl
  | cons b s ih =>
    obtain ⟨nonzero, free⟩ := not_or.mp (mem_cons.not.mp free)
    simp [cstring, Ne.symm nonzero, ih free]

theorem cstring_eq_none_iff : cstring data = none ↔ 0 ∉ data := by
  induction data with
  | nil => simp [cstring]
  | cons b data ih =>
    by_cases zero : b = 0
    · simp [cstring, zero]
    · simp [cstring, zero, Ne.symm zero, ih]

def encodePair (p : Bytes × Bytes) : Bytes := p.1 ++ 0 :: (p.2 ++ [0])

def addPair (params : Params) (p : Bytes × Bytes) : Params :=
  if p.1 = [] then params else Function.update params p.1 (some p.2)

def collect (params : Params) (pairs : List (Bytes × Bytes)) : Params := pairs.foldl addPair params

/-- Names and values, each ended by a zero, and then at most one byte, or bytes that are not zero. -/
def IsArea (data : Bytes) (pairs : List (Bytes × Bytes)) : Prop :=
  (∀ p ∈ pairs, 0 ∉ p.1 ∧ 0 ∉ p.2) ∧ ∃ tail, data = pairs.flatMap encodePair ++ tail ∧ (tail.length ≤ 1 ∨ 0 ∉ tail)

theorem paramLoop_of_area (enough : data.length ≤ n) (area : IsArea data pairs) :
    paramLoop n data params = some (collect params pairs) := by
  obtain ⟨free, tail, rfl, ends⟩ := area
  induction pairs generalizing n params with
  | nil =>
    cases n with
    | zero => rfl
    | succ n =>
      simp only [flatMap_nil, nil_append, paramLoop]
      split
      · rename_i long
        rw [cstring_eq_none_iff.mpr (ends.resolve_left (by omega))]
        rfl
      · rfl
  | cons p pairs ih =>
    obtain ⟨first, later⟩ := forall_mem_cons.mp free
    have shape : (p :: pairs).flatMap encodePair ++ tail =
      p.1 ++ 0 :: (p.2 ++ 0 :: (pairs.flatMap encodePair ++ tail)) := by
      simp [encodePair]
    rw [shape] at enough ⊢
    simp only [length_append, length_cons] at enough
    cases n with
    | zero => omega
    | succ n =>
      rw [paramLoop, if_pos (by simp; omega), cstring_append first.1]
      dsimp only
      rw [cstring_append first.2]
      exact ih later (by rw [length_append]; omega)

def code (body : Bytes) : Nat := ofBigEndian (body.take 4)

def requests : List (Bytes × Nat) :=
  [(asciiBytes "__ssl_request".toList, 80877103), (asciiBytes "__gssenc_request".toList, 80877104),
    (asciiBytes "__cancel_request".toList, 80877102)]

structure Contents (body : Bytes) (params : Params) : Prop where
  request : ∀ r ∈ requests, code body = r.2 → params r.1 = some (asciiBytes "true".toList)
  cancel : code body = 80877102 → 12 ≤ body.length →
    params (asciiBytes "__cancel_pid".toList) = some (asciiBytes (decimal (ofBigEndian ((body.drop 4).take 4)))) ∧
    params (asciiBytes "__cancel_secret_key".toList) = some (asciiBytes (decimal (ofBigEndian ((body.drop 8).take 4))))
  startup : (∀ r ∈ requests, code body ≠ r.2) →
    ∃ pairs, IsArea (body.drop 4) pairs ∧ params = collect (fun _ => none) pairs
  marked : ∀ r ∈ requests, (params r.1).isSome = true → code body = r.2

def Acceptable (body : Bytes) : Prop :=
  (∃ r ∈ requests, code body = r.2) ∨ ∃ pairs, IsArea (body.drop 4) pairs ∧ ∀ p ∈ pairs, ∀ r ∈ requests, p.1 ≠ r.1

theorem mem_requests_iff {P : Bytes × Nat → Prop} : (∀ r ∈ requests, P r) ↔
    P (asciiBytes "__ssl_request".toList, 80877103) ∧ P (asciiBytes "__gssenc_request".toList, 80877104) ∧
      P (asciiBytes "__cancel_request".toList, 80877102) := by
  simp [requests]

theorem addPair_isSome {p} {name} (given : name ≠ []) :
    (addPair params p name).isSome = true ↔ p.1 = name ∨ (params name).isSome = true := by
  unfold addPair
  split
  · rename_i empty
    simp [empty, Ne.symm given]
  · by_cases hs : name = p.1
    · simp [hs]
    · simp [update_of_ne hs, Ne.symm hs]

theorem collect_isSome {name} (given : name ≠ []) : (collect params pairs name).isSome = true ↔
    (∃ p ∈ pairs, p.1 = name) ∨ (params name).isSome = true := by
  induction pairs generalizing params with
  | nil => simp [collect]
  | cons p pairs ih =>
    have split : (collect params (p :: pairs) name).isSome = true ↔ _ := ih
    rw [split, addPair_isSome given]
    simp [or_left_comm, or_assoc]

theorem startupParams_eq (long : 4 ≤ body.length) (other : ∀ r ∈ requests, code body ≠ r.2) :
    startupParams body = paramLoop body.length (body.drop 4) fun _ => none := by
  rw [mem_requests_iff] at other
  obtain ⟨notSSL, notGSS, notCancel⟩ := other
  unfold startupParams
  rw [if_neg (Nat.not_lt.mpr long)]
  exact (if_neg notSSL).trans ((if_neg notGSS).trans (if_neg notCancel))

theorem setParam_self {name value} :
    setParam name value params (asciiBytes name.toList) = some (asciiBytes value) := update_self ..

theorem setParam_of_ne {name value key} (ne : key ≠ asciiBytes name.toList) :
    setParam name value params key = params key := update_of_ne ne ..

theorem request_unique : ∀ q ∈ requests, ∀ r ∈ requests, q.2 = r.2 → q = r := by decide

theorem request_ne_nil : ∀ r ∈ requests, r.1 ≠ [] := by decide

theorem contents_of_request {r : Bytes × Nat} (hm : r ∈ requests) (isCode : code body = r.2)
    (marker : params r.1 = some (asciiBytes "true".toList)) (others : ∀ q ∈ requests, q ≠ r → params q.1 = none)
    (cancel : code body = 80877102 → 12 ≤ body.length →
      params (asciiBytes "__cancel_pid".toList) = some (asciiBytes (decimal (ofBigEndian ((body.drop 4).take 4)))) ∧
      params (asciiBytes "__cancel_secret_key".toList) =
        some (asciiBytes (decimal (ofBigEndian ((body.drop 8).take 4))))) :
    Contents body params where
  request q hk sameCode := by
    rw [request_unique q hk r hm (sameCode.symm.trans isCode)]
    exact marker
  cancel := cancel
  startup other := absurd isCode (other r hm)
  marked q hk hf := by
    by_cases hs : q = r
    · rw [hs, isCode]
    · rw [others q hk hs] at hf
      cases hf

theorem startupParams_request (long : 4 ≤ body.length) (request : ∃ r ∈ requests, code body = r.2) :
    ∃ params, startupParams body = some params ∧ Contents body params := by
  have codes : code body = 80877103 ∨ code body = 80877104 ∨ code body = 80877102 := by simpa [requests] using request
  rw [startupParams, if_neg (Nat.not_lt.mpr long)]
  change ∃ params, (if code body = 80877103 then _ else if code body = 80877104 then _
    else if code body = 80877102 then _
    else _) = some params ∧ _
  rcases codes with isCode | isCode | isCode
  · rw [if_pos isCode]
    refine ⟨_, rfl, contents_of_request mem_cons_self isCode setParam_self
      (mem_requests_iff.mpr ?_) fun isCancel => by simp [isCode] at isCancel⟩
    exact ⟨fun ne => absurd rfl ne, fun _ => setParam_of_ne (by decide), fun _ => setParam_of_ne (by decide)⟩
  · rw [if_neg (by simp [isCode]), if_pos isCode]
    refine ⟨_, rfl, contents_of_request (.tail _ mem_cons_self) isCode setParam_self
      (mem_requests_iff.mpr ?_) fun isCancel => by simp [isCode] at isCancel⟩
    exact ⟨fun _ => setParam_of_ne (by decide), fun ne => absurd rfl ne, fun _ => setParam_of_ne (by decide)⟩
  · rw [if_neg (by simp [isCode]), if_neg (by simp [isCode]), if_pos isCode]
    have hm : (asciiBytes "__cancel_request".toList, 80877102) ∈ requests := .tail _ (.tail _ mem_cons_self)
    split
    · refine ⟨_, rfl, contents_of_request hm isCode ?_ (mem_requests_iff.mpr ?_) fun _ _ => ?_⟩
      · exact (setParam_of_ne (by decide)).trans ((setParam_of_ne (by decide)).trans setParam_self)
      · refine ⟨fun _ => ?_, fun _ => ?_, fun ne => absurd rfl ne⟩
        all_goals
          exact (setParam_of_ne (by decide)).trans ((setParam_of_ne (by decide)).trans (setParam_of_ne (by decide)))
      · exact ⟨(setParam_of_ne (by decide)).trans setParam_self, setParam_self⟩
    · rename_i short
      refine ⟨_, rfl, contents_of_request hm isCode setParam_self (mem_requests_iff.mpr ?_) fun _ => (absurd · short)⟩
      exact ⟨fun _ => setParam_of_ne (by decide), fun _ => setParam_of_ne (by decide), fun ne => absurd rfl ne⟩

theorem startupParams_iff (long : 4 ≤ body.length) :
    (∃ params, startupParams body = some params ∧ Contents body params) ↔ Acceptable body := by
  by_cases request : ∃ r ∈ requests, code body = r.2
  · exact iff_of_true (startupParams_request long request) (.inl request)
  have other : ∀ r ∈ requests, code body ≠ r.2 := fun r hm isCode => request ⟨r, hm, isCode⟩
  have enough : (body.drop 4).length ≤ body.length := by simp
  rw [startupParams_eq long other, Acceptable, or_iff_right request]
  constructor
  · intro ⟨params, hf, contents⟩
    obtain ⟨pairs, area, hs⟩ := contents.startup other
    refine ⟨pairs, area, fun p hm r hk named => other r hk (contents.marked r hk ?_)⟩
    rw [hs, collect_isSome (request_ne_nil r hk)]
    exact .inl ⟨p, hm, named⟩
  · intro ⟨pairs, area, unmarked⟩
    refine ⟨_, paramLoop_of_area enough area, fun r hk isCode => absurd isCode (other r hk),
      fun isCancel => absurd isCancel ?_, fun _ => ⟨pairs, area, rfl⟩, fun r hk marked => ?_⟩
    · exact (mem_requests_iff.mp other).2.2
    · rcases (collect_isSome (request_ne_nil r hk)).mp marked with ⟨p, hm, named⟩ | none
      · exact absurd named (unmarked p hm r hk)
      · cases none

def ReadsPacket (stream : Bytes) : Prop :=
  match readStartupMessage stream with
  | .panic => False
  | .error => True
  | .ok (params, rest) => ∃ body, readInt 4 stream = some (4 + (body.length : Int), body ++ rest) ∧ Contents body params

def SoundPacket (length : Int) (rest : Bytes) : Prop :=
  0 ≤ bodySize length ∧ rest.length < bodySize length ∨
    8 ≤ length ∧ length ≤ rest.length + 4 ∧ Acceptable (rest.take (length - 4).toNat)

theorem soundPacket_iff {length} (sizes : bodySize length = length - 4 ∨ length < 4) (hpos : 0 ≤ bodySize length)
    (whole : (bodySize length).toNat ≤ rest.length) : SoundPacket length rest ↔ length = 4 + bodySize length ∧
      ∃ params, startupParams (rest.take (bodySize length).toNat) = some params ∧
        Contents (rest.take (bodySize length).toNat) params := by
  constructor
  · rintro (short | ⟨long, -, acceptable⟩)
    · omega
    · have size : bodySize length = length - 4 := by omega
      rw [size] at whole ⊢
      exact ⟨by omega, (startupParams_iff (by simp; omega)).mpr acceptable⟩
  · intro ⟨hs, params, hf, contents⟩
    have long : 4 ≤ (rest.take (bodySize length).toNat).length := by
      by_contra short
      rw [startupParams, if_pos (Nat.not_le.mp short)] at hf
      cases hf
    have size : bodySize length = length - 4 := by omega
    have acceptable := (startupParams_iff long).mp ⟨params, hf, contents⟩
    rw [size] at long whole acceptable
    rw [length_take] at long
    exact .inr ⟨by omega, by omega, acceptable⟩

theorem readsPacket_iff {stream} :
    ReadsPacket stream ↔ ∀ length rest, readInt 4 stream = some (length, rest) → SoundPacket length rest := by
  cases read : readInt 4 stream with
  | none => simp [ReadsPacket, readStartupMessage, read]
  | some header =>
    obtain ⟨length, rest⟩ := header
    have single : (∀ other later, some (length, rest) = some (other, later) → SoundPacket other later) ↔
        SoundPacket length rest := ⟨fun all => all _ _ rfl, fun hh _ _ hs => by cases hs; exact hh⟩
    have sizes := bodySize_eq (readInt_bounds read)
    rw [single]
    simp only [ReadsPacket, readStartupMessage, read]
    by_cases negative : bodySize length < 0
    · rw [if_pos negative]
      refine iff_of_false id ?_
      rintro (short | ⟨long, -⟩) <;> omega
    rw [if_neg negative]
    by_cases short : rest.length < (bodySize length).toNat
    · rw [if_pos short]
      exact iff_of_true trivial (.inl (by omega))
    rw [if_neg short, soundPacket_iff (by omega) (by omega) (by omega)]
    cases hf : startupParams (rest.take (bodySize length).toNat) with
    | none => simp
    | some params =>
      constructor
      · intro ⟨body, hs, contents⟩
        obtain ⟨isLength, isRest⟩ := Prod.mk.inj (Option.some.inj hs)
        have size : (bodySize length).toNat = body.length := by omega
        rw [size, isRest, take_left]
        exact ⟨by omega, params, rfl, contents⟩
      · intro ⟨isLength, _, hs, contents⟩
        cases hs
        refine ⟨_, ?_, contents⟩
        rw [take_append_drop, length_take]
        congr 2
        omega

def encodeStartup (pairs : List (Bytes × Bytes)) : Bytes :=
  let body := bigEndian 4 196608 ++ (pairs.flatMap encodePair ++ [0])
  bigEndian 4 (body.length + 4) ++ body

theorem collect_lookup (named : ∀ p ∈ pairs, p.1 ≠ []) (distinct : (pairs.map Prod.fst).Nodup) (name : Bytes) :
    collect params pairs name = (pairs.lookup name).or (params name) := by
  induction pairs generalizing params with
  | nil => rfl
  | cons p pairs ih =>
    obtain ⟨first, later⟩ := forall_mem_cons.mp named
    obtain ⟨fresh, distinct⟩ := nodup_cons.mp distinct
    have split : collect params (p :: pairs) name = _ := ih later distinct
    rw [split, addPair, if_neg first, lookup_cons]
    by_cases hs : name = p.1
    · have absent : pairs.lookup p.1 = none := by
        rw [lookup_eq_none_iff]
        intro q hm
        simpa using fun h : p.1 = q.1 => fresh (h ▸ mem_map_of_mem hm)
      simp [hs, absent]
    · have other : (name == p.1) = false := beq_false_of_ne hs
      rw [update_of_ne hs, other]

theorem readStartupMessage_encodeStartup (hcl : ∀ p ∈ pairs, p.1 ≠ [] ∧ 0 ∉ p.1 ∧ 0 ∉ p.2)
    (distinct : (pairs.map Prod.fst).Nodup) (fits : (encodeStartup pairs).length < 2 ^ 31) (rest : Bytes) :
    readStartupMessage (encodeStartup pairs ++ rest) = .ok (fun name => pairs.lookup name, rest) := by
  let body := bigEndian 4 196608 ++ (pairs.flatMap encodePair ++ [0])
  have encoded : encodeStartup pairs = bigEndian 4 (body.length + 4) ++ body := rfl
  rw [encoded, length_append, length_bigEndian] at fits
  have read : readInt 4 (encodeStartup pairs ++ rest) = some ((body.length : Int) + 4, body ++ rest) := by
    rw [encoded]
    exact readInt_bigEndian _ (by omega) (by omega)
  have size : bodySize (body.length + 4) = body.length := by
    rw [bodySize, add_sub_cancel_right]
    exact bmod_eq_of_le_mul_two (by omega) (by omega)
  have version : code body = 196608 := by
    have ht : body.take 4 = bigEndian 4 196608 := rfl
    have value := ofBigEndian_bigEndian 4 196608
    rw [← ht] at value
    unfold code
    omega
  have area : IsArea (body.drop 4) pairs := ⟨fun p hm => (hcl p hm).2, [0], rfl, .inl (by simp)⟩
  have params : startupParams body = some fun name => pairs.lookup name := by
    rw [startupParams_eq (by simp [body]) (by rw [version]; decide), paramLoop_of_area (by simp) area]
    refine congrArg some (funext fun name => ?_)
    rw [collect_lookup (fun p hm => (hcl p hm).1) distinct, Option.or_none]
  simp only [readStartupMessage, read, size]
  rw [if_neg (by omega), if_neg (by simp), toNat_natCast, take_left, drop_left, params]

theorem startup_read_iff (stream : Bytes) (pairs : List (Bytes × Bytes))
    (clean : ∀ p ∈ pairs, p.1 ≠ [] ∧ 0 ∉ p.1 ∧ 0 ∉ p.2) (distinct : (pairs.map Prod.fst).Nodup)
    (fits : (encodeStartup pairs).length < 2 ^ 31) (rest : Bytes) :
    (ReadsPacket stream ↔ ∀ length rest, readInt 4 stream = some (length, rest) → SoundPacket length rest) ∧
      readStartupMessage (encodeStartup pairs ++ rest) = .ok (fun name => pairs.lookup name, rest) :=
  ⟨readsPacket_iff, readStartupMessage_encodeStartup clean distinct fits rest⟩

theorem startup_read_iff_user :
    (ReadsPacket [0, 0, 0, 7, 0, 3, 0] ↔
      ∀ length rest, readInt 4 [(0 : UInt8), 0, 0, 7, 0, 3, 0] = some (length, rest) →
      SoundPacket length rest) ∧
    readStartupMessage (encodeStartup [([117], [97])] ++ []) = .ok (fun name => [([117], [97])].lookup name, []) :=
  startup_read_iff _ [([117], [97])] (by decide) (by decide) (by decide) []

theorem short_startup_panics :
    readStartupMessage [0, 0, 0, 7, 0, 3, 0] = .panic ∧ ¬ ReadsPacket [0, 0, 0, 7, 0, 3, 0] := by
  have panics : readStartupMessage [0, 0, 0, 7, 0, 3, 0] = .panic := by
    have read : readInt 4 [(0 : UInt8), 0, 0, 7, 0, 3, 0] = some (7, [0, 3, 0]) := by decide
    have size : bodySize 7 = 3 := by decide
    simp [readStartupMessage, read, size, startupParams]
  exact ⟨panics, by rw [ReadsPacket, panics]; exact id⟩

end Duckgres.Proof.Conn
