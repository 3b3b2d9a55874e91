import TimedCache.Base64

/-!
# Base64 is read back

Every byte string is read back from its written form (`Base64.decode?_encode`), and the written form
is made of ASCII characters (`Base64.lt_of_mem_encode`).

**Groups.**  Both directions collect what they have done in reverse.  Taken off (`encodeOn_eq`,
`decodeOn_eq`), writing and reading go group by group: three bytes become four characters and the
other way round, and only the last group is written with padding.
-/

namespace TimedCache.Base64

/-! ### Characters -/

/-- Every character of six bits stands for these bits. -/
theorem value?_digit {n : Nat} (lt : n < 64) : value? (digit n) = some n := by
  revert n
  decide

/-- No character of six bits is padding. -/
theorem digit_ne_pad {n : Nat} (lt : n < 64) : digit n ≠ pad := by
  revert n
  decide

theorem digit_lt (n : Nat) : digit n < 0x80 := by
  have small : ∀ n < 64, digit n < 0x80 := by decide
  by_cases lt : n < 64
  · exact small n lt
  · simp only [digit, if_neg (show ¬n < 26 by omega), if_neg (show ¬n < 52 by omega),
      if_neg (show ¬n < 62 by omega), if_neg (show ¬n = 62 by omega)]
    decide

/-- A number that is the value of a byte stands for that byte. -/
theorem toUInt8_eq {n : Nat} {b : UInt8} (eq : n = b.toNat) : n.toUInt8 = b := by
  rw [eq]
  exact UInt8.ofNat_toNat

/-! ### What has been done already -/

/-- What has been written stays in front. -/
theorem encodeOn_eq (done bytes : Bytes) : encodeOn done bytes = done.reverse ++ encode bytes := by
  have step : ∀ done front : Bytes, encodeOn (done ++ front) bytes =
      front.reverse ++ encodeOn done bytes := by
    intro done front
    induction done, bytes using encodeOn.induct with
    | case1 done a b c rest n ih => simpa only [encodeOn, List.cons_append] using ih
    | case2 => simp [encodeOn]
    | case3 => simp [encodeOn]
    | case4 => simp [encodeOn]
  exact step [] done

/-- What has been read stays in front. -/
theorem decodeOn_eq (done text : Bytes) :
    decodeOn done text = (decode? text).map fun bytes => done.reverse ++ bytes := by
  have step : ∀ done front : Bytes, decodeOn (done ++ front) text =
      (decodeOn done text).map fun bytes => front.reverse ++ bytes := by
    intro done front
    fun_induction decodeOn done text <;> simp_all [decodeOn, Function.comp_def]
  exact step [] done

/-! ### Group by group -/

/-- The first three bytes become the first four characters. -/
theorem encode_cons_cons_cons (a b c : UInt8) (rest : Bytes) :
    encode (a :: b :: c :: rest) =
      digit ((65536 * a.toNat + 256 * b.toNat + c.toNat) / 262144)
        :: digit ((65536 * a.toNat + 256 * b.toNat + c.toNat) / 4096 % 64)
        :: digit ((65536 * a.toNat + 256 * b.toNat + c.toNat) / 64 % 64)
        :: digit ((65536 * a.toNat + 256 * b.toNat + c.toNat) % 64) :: encode rest := by
  rw [encode, encodeOn, encodeOn_eq]
  rfl

/-- Four characters are read as three bytes. -/
theorem decode?_group {a b c d : Nat} (ha : a < 64) (hb : b < 64) (hc : c < 64) (hd : d < 64)
    (text : Bytes) :
    decode? (digit a :: digit b :: digit c :: digit d :: text) =
      (decode? text).map fun bytes =>
        (4 * a + b / 16).toUInt8 :: (16 * (b % 16) + c / 4).toUInt8 :: (64 * (c % 4) + d).toUInt8
          :: bytes := by
  rw [decode?, decodeOn, if_neg (digit_ne_pad hd), value?_digit ha, value?_digit hb,
    value?_digit hc, value?_digit hd]
  exact decodeOn_eq _ text

/-- A last group of two bytes. -/
theorem decode?_encode_pair (a b : UInt8) : decode? (encode [a, b]) = some [a, b] := by
  have ha := a.toNat_lt
  have hb := b.toNat_lt
  have h₁ : (256 * a.toNat + b.toNat) / 1024 < 64 := by omega
  have h₂ : (256 * a.toNat + b.toNat) / 16 % 64 < 64 := by omega
  have h₃ : 4 * ((256 * a.toNat + b.toNat) % 16) < 64 := by omega
  have whole : 4 * ((256 * a.toNat + b.toNat) % 16) % 4 = 0 := by omega
  simp only [encode, encodeOn, List.reverse_cons, List.reverse_nil, List.nil_append,
    List.cons_append, decode?, decodeOn, lastGroup?, value?_digit h₁, value?_digit h₂,
    value?_digit h₃, if_neg (digit_ne_pad h₃), if_pos whole, List.isEmpty_nil, if_true,
    Option.map_some]
  rw [toUInt8_eq (b := a) (by omega), toUInt8_eq (b := b) (by omega)]

/-- A last group of one byte. -/
theorem decode?_encode_singleton (a : UInt8) : decode? (encode [a]) = some [a] := by
  have ha := a.toNat_lt
  have h₁ : a.toNat / 4 < 64 := by omega
  have h₂ : 16 * (a.toNat % 4) < 64 := by omega
  have whole : 16 * (a.toNat % 4) % 16 = 0 := by omega
  simp only [encode, encodeOn, List.reverse_cons, List.reverse_nil, List.nil_append,
    List.cons_append, decode?, decodeOn, lastGroup?, value?_digit h₁, value?_digit h₂,
    if_pos whole, List.isEmpty_nil, if_true, Option.map_some]
  rw [toUInt8_eq (b := a) (by omega)]

/-- **Bytes are read back** from their written form. -/
theorem decode?_encode : ∀ bytes : Bytes, decode? (encode bytes) = some bytes
  | [] => rfl
  | [a] => decode?_encode_singleton a
  | [a, b] => decode?_encode_pair a b
  | a :: b :: c :: rest => by
      have ha := a.toNat_lt
      have hb := b.toNat_lt
      have hc := c.toNat_lt
      rw [encode_cons_cons_cons, decode?_group (by omega) (by omega) (by omega) (by omega),
        decode?_encode rest, Option.map_some, toUInt8_eq (b := a) (by omega),
        toUInt8_eq (b := b) (by omega), toUInt8_eq (b := c) (by omega)]

/-- The written form is made of ASCII characters. -/
theorem lt_of_mem_encode : ∀ {bytes : Bytes} {b : UInt8}, b ∈ encode bytes → b < 0x80
  | [], _, mem => nomatch mem
  | [a], b, mem => by
      simp only [encode, encodeOn, List.mem_reverse, List.mem_cons, List.not_mem_nil,
        or_false] at mem
      rcases mem with rfl | rfl | rfl | rfl <;> first | exact digit_lt _ | decide
  | [a, b'], b, mem => by
      simp only [encode, encodeOn, List.mem_reverse, List.mem_cons, List.not_mem_nil,
        or_false] at mem
      rcases mem with rfl | rfl | rfl | rfl <;> first | exact digit_lt _ | decide
  | a :: b' :: c :: rest, b, mem => by
      rw [encode_cons_cons_cons] at mem
      simp only [List.mem_cons] at mem
      rcases mem with rfl | rfl | rfl | rfl | mem
      iterate 4 exact digit_lt _
      exact lt_of_mem_encode mem

end TimedCache.Base64
