import TimedCache.Proofs.Bytes
import TimedCache.Text.Percent

/-!
# Percent coding is undone

**What is coded is decoded again**, whatever the bytes are (`percentDecode_percentEncode`).  The coded
form holds nothing but unreserved characters and `%` (`mem_percentEncode`), so that it fits in one segment
of a path.
-/

namespace TimedCache

theorem hexValue?_upperHexDigit {n : Nat} (lt : n < 16) : hexValue? (upperHexDigit n) = some n := by
  have all : ∀ digit : Fin 16, hexValue? (upperHexDigit digit) = some digit.val := by decide
  exact all ⟨n, lt⟩

theorem isUnreserved_upperHexDigit {n : Nat} (lt : n < 16) :
    isUnreserved (upperHexDigit n) = true := by
  have all : ∀ digit : Fin 16, isUnreserved (upperHexDigit digit) = true := by decide
  exact all ⟨n, lt⟩

/-- What is no `%` stands for itself. -/
theorem percentDecode_cons_of_ne {b : UInt8} (ne : b ≠ 0x25) (rest : Bytes) :
    percentDecode (b :: rest) = b :: percentDecode rest := by
  rw [percentDecode]
  rintro high low behind rfl
  exact absurd rfl ne

/-- A coded byte is decoded. -/
theorem percentDecode_coded (b : UInt8) (rest : Bytes) :
    percentDecode (0x25 :: upperHexDigit (b.toNat / 16) :: upperHexDigit (b.toNat % 16) :: rest) =
      b :: percentDecode rest := by
  have lt : b.toNat < 256 := b.toNat_lt
  have high : hexValue? (upperHexDigit (b.toNat / 16)) = some (b.toNat / 16) :=
    hexValue?_upperHexDigit (by omega)
  have low : hexValue? (upperHexDigit (b.toNat % 16)) = some (b.toNat % 16) :=
    hexValue?_upperHexDigit (by omega)
  simp only [percentDecode, high, low, Bytes.toUInt8_digits]

theorem percentEncode_cons (b : UInt8) (bytes : Bytes) :
    percentEncode (b :: bytes) = (if isUnreserved b then [b]
      else [0x25, upperHexDigit (b.toNat / 16), upperHexDigit (b.toNat % 16)]) ++
        percentEncode bytes := rfl

/-- **What is coded is decoded.** -/
theorem percentDecode_percentEncode (bytes : Bytes) :
    percentDecode (percentEncode bytes) = bytes := by
  induction bytes with
  | nil => rfl
  | cons b bytes ih =>
      rw [percentEncode_cons]
      split
      next unreserved =>
        have ne : b ≠ 0x25 := by
          rintro rfl
          exact absurd unreserved (by decide)
        rw [List.singleton_append, percentDecode_cons_of_ne ne, ih]
      next =>
        refine (percentDecode_coded b (percentEncode bytes)).trans ?_
        rw [ih]

/-- The coded form consists of unreserved characters and `%`. -/
theorem mem_percentEncode {bytes : Bytes} {c : UInt8} (mem : c ∈ percentEncode bytes) :
    isUnreserved c = true ∨ c = 0x25 := by
  obtain ⟨b, -, coded⟩ := List.mem_flatMap.mp mem
  have lt : b.toNat < 256 := b.toNat_lt
  split at coded
  next unreserved =>
    rw [List.mem_singleton] at coded
    exact .inl (coded ▸ unreserved)
  next =>
    simp only [List.mem_cons, List.not_mem_nil, or_false] at coded
    obtain rfl | rfl | rfl := coded
    · exact .inr rfl
    · exact .inl (isUnreserved_upperHexDigit (by omega))
    · exact .inl (isUnreserved_upperHexDigit (by omega))

theorem not_mem_percentEncode {c : UInt8} (reserved : isUnreserved c = false) (ne : c ≠ 0x25)
    (bytes : Bytes) : c ∉ percentEncode bytes := by
  intro mem
  obtain unreserved | same := mem_percentEncode mem
  · rw [reserved] at unreserved
    cases unreserved
  · exact ne same

/-- Only nothing is coded as nothing. -/
theorem percentEncode_ne_nil {bytes : Bytes} (nonempty : bytes ≠ []) : percentEncode bytes ≠ [] := by
  intro empty
  have decoded := percentDecode_percentEncode bytes
  rw [empty] at decoded
  exact nonempty decoded.symm

end TimedCache
