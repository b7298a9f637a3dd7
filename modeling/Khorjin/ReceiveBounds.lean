import Khorjin.ClientCalls

set_option autoImplicit false

/-!
# The sizes that a read hands over

The parsers are called with whatever the read loop ends with, which may be -1. The
checksum is computed over that number of bytes less two, as an unsigned length.
-/
namespace Khorjin
open ByteMemory LoopRules
variable {F D : Type} [Platform F D]

theorem readLoop_cases {reads rest : List SocketRead} {n : ℤ} {data : List UInt8}
    (h : readLoop reads = some (n, data, rest)) :
    (n = -1 ∧ data = []) ∨ (n = data.length ∧ 0 < data.length ∧ data.length ≤ BUFER_LENGTH) := by
  induction reads with
  | nil => simp [readLoop] at h
  | cons read reads ih =>
    cases read with
    | again => exact ih h
    | failed =>
      cases h
      exact .inl ⟨rfl, rfl⟩
    | received chunk =>
      cases h
      exact .inr ⟨rfl, chunk.nonempty, chunk.fits⟩

theorem parseConfigurationFrame_two_le {self self' : Client F} {b : Memory} {n r : ℤ}
    (h : parseConfigurationFrame self b n = some (r, self')) : 2 ≤ n := by
  simp only [parseConfigurationFrame, Option.bind_eq_bind, Option.bind_eq_some_iff] at h
  obtain ⟨_, check, _⟩ := h
  exact checkFrame_two_le check

theorem parseDataFrame_two_le {t : Temps F} {self self' : Client F} {b : Memory} {n r : ℤ}
    (h : parseDataFrame t self b n = some (r, self')) : 2 ≤ n := by
  simp only [parseDataFrame, Option.bind_eq_bind, Option.bind_eq_some_iff] at h
  obtain ⟨_, check, _⟩ := h
  exact checkFrame_two_le check

theorem readLoop_handed_iff (n : ℤ) : (∃ reads data rest, readLoop reads = some (n, data, rest)) ↔
    n = -1 ∨ 1 ≤ n ∧ n ≤ BUFER_LENGTH := by
  constructor
  · rintro ⟨reads, data, rest, loop⟩
    rcases readLoop_cases loop with ⟨rfl, _⟩ | ⟨rfl, pos, fits⟩
    · exact .inl rfl
    · exact .inr ⟨by omega, by omega⟩
  · rintro (rfl | ⟨h1, h2⟩)
    · exact ⟨[.failed], [], [], rfl⟩
    · obtain ⟨k, rfl⟩ := Int.eq_ofNat_of_zero_le (show 0 ≤ n by omega)
      have size : (List.replicate k (0 : UInt8)).length = k := List.length_replicate
      refine ⟨[.received ⟨List.replicate k 0, by omega, by omega⟩], List.replicate k 0, [], ?_⟩
      simp [readLoop]

def crcPasses (bufferSize : ℤ) : ℕ := (UInt32.ofInt (bufferSize - 2)).toNat

/-- Nothing outside the `n` bytes received is read for the checksum, its loop runs at most
    `n` times, and a result too short for a checksum is rejected without running it. -/
structure HandledWithin (t : Temps F) (client : Client F) (b : Memory) (n : ℤ) : Prop where
  reads : (crcCheck (b.below n.toNat) n).isSome
  passes : crcPasses n ≤ n.toNat
  short : n < 2 → crcPasses n = 0 ∧ parseDataFrame t client b n = some (-1, client) ∧
    parseConfigurationFrame client b n = some (-1, client)

/-- Of the results of the read loop, those of two bytes or more are handled within the
    bytes received. -/
theorem handled_within_iff (t : Temps F) (self : Client F) (b : Memory) (n : ℤ)
    (handed : n = -1 ∨ 1 ≤ n ∧ n ≤ BUFER_LENGTH) (mapped : b.Defined 0 BUFER_LENGTH) :
    HandledWithin t self b n ↔ 2 ≤ n := by
  constructor
  · intro within
    obtain ⟨v, hv⟩ := Option.isSome_iff_exists.1 within.reads
    exact crcCheck_two_le hv
  · intro h2
    obtain ⟨k, rfl⟩ := Int.eq_ofNat_of_zero_le (show 0 ≤ n by omega)
    have k2 : 2 ≤ k := by omega
    have fits : k ≤ BUFER_LENGTH := by omega
    have lt : k < 2 ^ 31 := Nat.lt_of_le_of_lt fits (by decide)
    constructor
    case reads =>
      have inside : (b.below k).Defined 0 k := by
        rw [Memory.below_defined_iff]
        exact ⟨mapped.mono (le_refl 0) fits, fun _ => le_refl k⟩
      have check := (crcCheck_iff (b.below k) k k2 lt _).2 ⟨inside, rfl⟩
      exact Option.isSome_iff_exists.2 ⟨_, check⟩
    case passes =>
      change (UInt32.ofInt ((k : ℤ) - 2)).toNat ≤ k
      rw [messageLength k k2 lt]
      omega
    case short =>
      intro short
      omega

theorem getDataStream_two_le {t : Temps F} {self : Client F} {reads : List SocketRead}
    (h : (getDataStream t self reads).isSome) :
    ∃ n data rest, readLoop reads = some (n, data, rest) ∧ 2 ≤ n := by
  obtain ⟨_, run⟩ := Option.isSome_iff_exists.1 h
  simp only [getDataStream, Option.bind_eq_bind, Option.bind_eq_some_iff] at run
  obtain ⟨⟨n, data, rest⟩, loop, _, parse, _⟩ := run
  exact ⟨n, data, rest, loop, parseDataFrame_two_le parse⟩

theorem getDataStream_failed (t : Temps F) (self : Client F) :
    ¬ (getDataStream t self [.failed]).isSome := by
  intro defined
  obtain ⟨n, data, rest, loop, h2⟩ := getDataStream_two_le defined
  cases loop
  omega

section
attribute [local instance] ExactRational.platform

/-- A closed connection hands over -1: the checksum loop sets out to run 2^32 - 3 times and
    leaves the receive buffer. -/
theorem closed_connection_runs_away :
    readLoop [.failed] = some (-1, [], []) ∧
      ¬ HandledWithin ⟨0, 0⟩ (Client.fresh 7 0 [] [] : Client ℚ)
        (Memory.zeroFilled BUFER_LENGTH []) (-1) ∧
      crcPasses (-1) = 4294967293 ∧
      computeCRC (Memory.zeroFilled BUFER_LENGTH []) (UInt32.ofInt (-1 - 2)) = none ∧
      ¬ (getDataStream ⟨0, 0⟩ (Client.fresh 7 0 [] [] : Client ℚ) [.failed]).isSome := by
  refine ⟨rfl, ?_, by decide, ?_, ?_⟩
  · intro within
    obtain ⟨v, hv⟩ := Option.isSome_iff_exists.1 within.reads
    exact absurd (crcCheck_two_le hv) (by decide)
  · refine Option.eq_none_iff_forall_ne_some.2 (fun c run => ?_)
    have read := ((computeCRC_iff _ _ _).1 run).1 BUFER_LENGTH (Nat.zero_le _) (by decide)
    simp [Memory.zeroFilled] at read
  · exact getDataStream_failed _ _

theorem two_bytes_handled_within :
    HandledWithin ⟨0, 0⟩ (Client.fresh 7 0 [] [] : Client ℚ)
      (Memory.zeroFilled BUFER_LENGTH [0xFF, 0xFF]) 2 :=
  (handled_within_iff _ _ _ 2 (by decide) (Memory.zeroFilled_defined _ (le_refl _))).2 (by decide)

end
end Khorjin
