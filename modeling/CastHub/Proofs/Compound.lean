import CastHub.Proofs.Normalisation
/-!
# Datagrams of several packets

A datagram is read packet by packet, and no packet is affected by what stands around it: what
follows a packet does not matter to it, and what was read before does not matter to the rest. So
reading takes datagrams that are put together to lists that are put together, and where the first of
them can be read, the error in the second is the error in both.

* `Packet.bounds_of_parse`, `Packet.parse_append` : a packet takes at least its head, and no more
  than there is, whatever follows;
* `Packet.parseCompound_of_ok`, `Packet.parseCompound_of_error` : one round of reading;
* `Packet.parseCompound_append` : two datagrams in one;
* `Packet.parseCompound_words` : packets come back from their words, put together;
* `Packet.readRounds` : reading with a limit on the rounds, with `Packet.readRounds_eq` : one round
  for every four bytes is enough;
* `Packet.compounds_are_concatenated` : the three laws.
-/

namespace CastHub.Rtcp

namespace Packet

variable {data a b : List UInt8} {p : Packet} {n : Nat} {e : WireError}

/-! ## One packet among others -/

/-- A packet takes at least its head, and no more than there is. -/
theorem bounds_of_parse (read : parse data = .ok (p, n)) : 4 ≤ n ∧ n ≤ data.length := by
  obtain ⟨first, second, third, fourth, rest, type, -, -, -, isLength, enough, -⟩ :=
    parse_eq_ok_iff.1 read
  exact ⟨by omega, enough⟩

/-- What follows a packet does not matter. -/
theorem parse_append (read : parse data = .ok (p, n)) (rest : List UInt8) :
    parse (data ++ rest) = .ok (p, n) := by
  obtain ⟨first, second, third, fourth, behind, type, rfl, isVersion, isType, isLength, enough,
    made⟩ := parse_eq_ok_iff.1 read
  have inside : n - 4 ≤ behind.length := by
    simp only [List.length_cons] at enough
    omega
  refine parse_eq_ok_iff.2 ⟨first, second, third, fourth, behind ++ rest, type, rfl, isVersion,
    isType, isLength, ?_, ?_⟩
  · rw [List.length_append]
    omega
  · rw [List.take_append_of_le_length inside]
    exact made

/-! ## One round of reading -/

theorem parseCompound_nil : parseCompound [] = .ok [] := by
  rw [parseCompound]

/-- Where no packet can be read, reading ends with the error. -/
theorem parseCompound_of_error (some : data ≠ []) (fault : parse data = .error e) :
    parseCompound data = .error e := by
  cases data with
  | nil => exact absurd rfl some
  | cons byte rest => rw [parseCompound, fault]

/-- Where a packet can be read, reading goes on behind it. -/
theorem parseCompound_of_ok (read : parse data = .ok (p, n)) :
    parseCompound data = (parseCompound (data.drop n)).map (p :: ·) := by
  obtain ⟨least, most⟩ := bounds_of_parse read
  cases data with
  | nil =>
    have : ([] : List UInt8).length = 0 := rfl
    omega
  | cons byte rest =>
    obtain ⟨used, rfl⟩ : ∃ used, n = used + 1 := ⟨n - 1, by omega⟩
    rw [parseCompound, read, List.drop_succ_cons]
    simp only [Nat.add_sub_cancel]
    cases parseCompound (rest.drop used) with
    | error fault => rfl
    | ok packets => rfl

/-- A datagram that can be read is empty, or it begins with a packet. -/
theorem parseCompound_eq_ok {packets : List Packet} (read : parseCompound data = .ok packets) :
    (data = [] ∧ packets = []) ∨ ∃ p n later, parse data = .ok (p, n)
      ∧ parseCompound (data.drop n) = .ok later ∧ packets = p :: later := by
  by_cases empty : data = []
  · subst empty
    rw [parseCompound_nil] at read
    exact .inl ⟨rfl, (Except.ok.inj read).symm⟩
  · right
    cases first : parse data with
    | error fault =>
      rw [parseCompound_of_error empty first] at read
      cases read
    | ok result =>
      obtain ⟨p, n⟩ := result
      rw [parseCompound_of_ok first] at read
      cases behind : parseCompound (data.drop n) with
      | error fault =>
        rw [behind] at read
        cases read
      | ok later =>
        rw [behind] at read
        exact ⟨p, n, later, rfl, behind, (Except.ok.inj read).symm⟩

/-! ## Datagrams put together -/

/-- If a datagram can be read, reading goes on behind it as if what follows stood alone. -/
theorem parseCompound_append {packets : List Packet} (read : parseCompound a = .ok packets)
    (b : List UInt8) : parseCompound (a ++ b) = (parseCompound b).map (packets ++ ·) := by
  -- the induction is on what is left to read of the first datagram
  induction left : a.length using Nat.strongRecOn generalizing a packets with
  | ind length ih =>
    rcases parseCompound_eq_ok read with ⟨rfl, rfl⟩ | ⟨p, n, later, first, behind, rfl⟩
    · cases whole : parseCompound b with
      | error fault => rw [List.nil_append, whole]; rfl
      | ok others => rw [List.nil_append, whole]; rfl
    · obtain ⟨least, most⟩ := bounds_of_parse first
      have shorter : (a.drop n).length < length := by
        rw [List.length_drop]
        omega
      rw [parseCompound_of_ok (parse_append first b), List.drop_append_of_le_length most,
        ih _ shorter behind rfl]
      cases parseCompound b with
      | error fault => rfl
      | ok others => rfl

/-- Packets come back from their words, put together. -/
theorem parseCompound_words {packets : List Packet} (room : ∀ p ∈ packets, p.Fits) :
    parseCompound (packets.map fun p => bytesOf p.words).flatten = .ok packets := by
  induction packets with
  | nil => exact parseCompound_nil
  | cons p rest ih =>
    obtain ⟨here, later⟩ := List.forall_mem_cons.1 room
    have first := here.parse_words (rest.map fun p => bytesOf p.words).flatten
    rw [List.map_cons, List.flatten_cons, parseCompound_of_ok first, List.drop_left', ih later]
    · rfl
    · rfl

/-- Packets that have room in the format are all encoded. -/
theorem mapM_encode {packets : List Packet} (room : ∀ p ∈ packets, p.Fits) :
    packets.mapM encode = .ok (packets.map fun p => bytesOf p.words) := by
  induction packets with
  | nil => rfl
  | cons p rest ih =>
    obtain ⟨here, later⟩ := List.forall_mem_cons.1 room
    rw [List.mapM_cons, here.encode_eq, ih later]
    rfl

/-! ## The rounds of reading -/

/-- What is read in so many rounds, each of which takes one packet; nothing if that is not all. -/
def readRounds : Nat → List UInt8 → Option (Except WireError (List Packet))
  | _, [] => some (.ok [])
  | 0, _ :: _ => none
  | rounds + 1, byte :: rest =>
    match parse (byte :: rest) with
    | .error e => some (.error e)
    | .ok (p, n) => (readRounds rounds ((byte :: rest).drop n)).map (·.map (p :: ·))

/-- One round for every four bytes is enough, because each of them takes at least as many. -/
theorem readRounds_eq {rounds : Nat} (enough : data.length ≤ 4 * rounds) :
    readRounds rounds data = some (parseCompound data) := by
  induction rounds generalizing data with
  | zero =>
    obtain rfl := List.eq_nil_of_length_eq_zero (Nat.le_zero.1 enough)
    rw [readRounds, parseCompound_nil]
  | succ rounds ih =>
    cases data with
    | nil => rw [readRounds, parseCompound_nil]
    | cons byte rest =>
      rw [readRounds]
      cases first : parse (byte :: rest) with
      | error fault => rw [parseCompound_of_error (by simp) first]
      | ok result =>
        obtain ⟨p, n⟩ := result
        obtain ⟨least, most⟩ := bounds_of_parse first
        have fewer : ((byte :: rest).drop n).length ≤ 4 * rounds := by
          rw [List.length_drop]
          omega
        rw [parseCompound_of_ok first]
        simp only [ih fewer]
        rfl

/-! ## All three -/

/-- **Datagrams are put together as they are read.** If one datagram can be read, another one that
is put behind it adds what it holds, or fails as it does alone. So if packets that have room in the
format are encoded and put together, they come back in their order. And each round of reading takes
at least four bytes of what there is, so that reading any bytes ends after a round for every four of
them. -/
theorem compounds_are_concatenated :
    (∀ a b xs, parseCompound a = .ok xs →
      (∀ ys, parseCompound b = .ok ys → parseCompound (a ++ b) = .ok (xs ++ ys)) ∧
      ∀ e, parseCompound b = .error e → parseCompound (a ++ b) = .error e) ∧
    (∀ packets : List Packet, (∀ p ∈ packets, p.Fits) →
      ∃ parts, packets.mapM encode = .ok parts ∧ parseCompound parts.flatten = .ok packets) ∧
    ∀ data, (∀ p n, parse data = .ok (p, n) → 4 ≤ n ∧ n ≤ data.length) ∧
      ∀ rounds, data.length ≤ 4 * rounds → readRounds rounds data = some (parseCompound data) := by
  refine ⟨fun a b xs read => ⟨fun ys behind => ?_, fun e behind => ?_⟩, fun packets room => ?_,
    fun data => ⟨fun p n read => bounds_of_parse read, fun rounds enough => readRounds_eq enough⟩⟩
  · rw [parseCompound_append read, behind]
    rfl
  · rw [parseCompound_append read, behind]
    rfl
  · exact ⟨_, mapM_encode room, parseCompound_words room⟩

/-- A sender's report and an extended one. -/
def pair : List Packet := [sender ⟨1, ⟨2, 3⟩, 4, 5, 6, []⟩, answers]

/-- So it is with these two, read twice over and before a head of another version. -/
theorem compounds_are_concatenated_pair : ∃ parts, pair.mapM encode = .ok parts ∧
    parseCompound parts.flatten = .ok pair ∧
    parseCompound (parts.flatten ++ parts.flatten) = .ok (pair ++ pair) ∧
    parseCompound (parts.flatten ++ [0x40, 200, 0, 0]) = .error (.badVersion 1) := by
  obtain ⟨join, written, -⟩ := compounds_are_concatenated
  obtain ⟨parts, encoded, read⟩ := written pair (by decide)
  have other : parseCompound [0x40, 200, 0, 0] = .error (.badVersion 1) :=
    parseCompound_of_error (by simp) rfl
  exact ⟨parts, encoded, read, (join _ _ _ read).1 _ read, (join _ _ _ read).2 _ other⟩

end Packet

end CastHub.Rtcp
