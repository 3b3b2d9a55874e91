import TimedCache.Proofs.Glob.Token

/-!
# The machine reads tokens

The machine of `TimedCache.Glob` reads a pattern by index, while its tokens are read off a list.  An
index stands for the **rest of the pattern** behind it, and a rest stands for its distance from the
end, so the two ways of reading can be compared.

**Classes.**  `scanClass_eq` says that the scan of a class finds exactly the items and the end that
`readClass` reads.  **Moves.**  `move_eq` says that a move does what the first token of the rest
asks for.  Neither ever reads outside the pattern.
-/

namespace TimedCache.Glob

section Rest

variable {p : Array UInt8} {i : Nat} {a : UInt8} {rest : Bytes}

/-! ### Indices and rests -/

theorem getElem?_of_rest (here : p.toList.drop i = a :: rest) : p[i]? = some a := by
  rw [← Array.getElem?_toList, ← List.head?_drop, here, List.head?_cons]

theorem lt_size_of_rest (here : p.toList.drop i = a :: rest) : i < p.size :=
  (Array.getElem?_eq_some_iff.mp (getElem?_of_rest here)).1

theorem size_le_of_rest_nil (here : p.toList.drop i = []) : p.size ≤ i := by
  simpa using List.drop_eq_nil_iff.mp here

theorem rest_succ (here : p.toList.drop i = a :: rest) : p.toList.drop (i + 1) = rest := by
  rw [← List.tail_drop, here, List.tail_cons]

/-- The index of a rest is its distance from the end. -/
theorem length_rest (here : p.toList.drop i = rest) : rest.length = p.size - i := by
  rw [← here, List.length_drop, Array.length_toList]

/-- A rest lies where its distance from the end says. -/
theorem rest_of_suffix (suffix : rest <:+ p.toList) :
    p.toList.drop (p.size - rest.length) = rest := by
  simpa using (List.suffix_iff_eq_drop.mp suffix).symm

theorem rest_suffix (here : p.toList.drop i = rest) : rest <:+ p.toList :=
  here ▸ List.drop_suffix i p.toList

end Rest

/-! ### Classes -/

section Scan

variable {p : Array UInt8} {i : Nat} {a : UInt8} {rest : Bytes}

/-- The two ends of a range come in either order. -/
theorem inRange_eq_covers (a b c : UInt8) : inRange a b c = (Item.range a b).covers c := by
  rw [Bool.eq_iff_iff, Item.covers]
  by_cases le : a ≤ b
  · rw [inRange, if_pos le]
    simp only [Bool.and_eq_true, Bool.or_eq_true, decide_eq_true_eq, UInt8.le_iff_toNat_le] at *
    omega
  · rw [inRange, if_neg le]
    simp only [Bool.and_eq_true, Bool.or_eq_true, decide_eq_true_eq, UInt8.le_iff_toNat_le] at *
    omega

/-- One round of the scan takes one item. -/
theorem scanItems_succ (c : UInt8) (fuel : Nat) (hit : Bool) (here : p.toList.drop i = a :: rest) :
    scanItems p c (fuel + 1) i hit =
      if a = 0x5D then .closed hit (i + 1)
      else scanItems p c fuel (p.size - (firstItem a rest).2.length)
        (hit || (firstItem a rest).1.covers c) := by
  have inside := lt_size_of_rest here
  have behind : p[i + 1]? = rest[0]? := by
    rw [← rest_succ here, List.getElem?_drop, Array.getElem?_toList, Nat.add_zero]
  have further : p[i + 2]? = rest[1]? := by
    rw [← rest_succ here, List.getElem?_drop, Array.getElem?_toList]
  have left : rest.length = p.size - (i + 1) := length_rest (rest_succ here)
  rw [scanItems, if_pos inside, getElem?_of_rest here]
  dsimp only
  rw [behind, further]
  by_cases closing : a = 0x5D
  · rw [if_pos closing, if_pos closing]
  rw [if_neg closing, if_neg closing]
  -- The rest decides how many bytes the item takes: it may be too short for an escape or a range.
  by_cases escape : a = 0x5C
  · rcases rest with _ | ⟨escaped, tail⟩
    · simp only [List.length_nil] at left
      have next : p.size = i + 1 := by omega
      simp [firstItem, escape, Item.covers, next]
    · simp only [List.length_cons] at left
      have more : i + 1 < p.size := by omega
      have next : p.size - tail.length = i + 2 := by omega
      simp [firstItem, escape, Item.covers, more, next]
  · rcases rest with _ | ⟨dash, _ | ⟨b, tail⟩⟩
    · simp only [List.length_nil] at left
      have next : p.size = i + 1 := by omega
      simp [firstItem, escape, Item.covers, next]
    · simp only [List.length_cons, List.length_nil] at left
      have wide : ¬ i + 2 < p.size := by omega
      have next : p.size - 1 = i + 1 := by omega
      simp [firstItem, escape, Item.covers, wide, next]
    · simp only [List.length_cons] at left
      have wide : i + 2 < p.size := by omega
      by_cases range : dash = 0x2D ∧ ¬ b = 0x5D
      · have next : p.size - tail.length = i + 3 := by omega
        simp [firstItem, escape, wide, range, next, inRange_eq_covers]
      · have next : p.size - (tail.length + 1 + 1) = i + 1 := by omega
        simp [firstItem, escape, Item.covers, wide, range, next]

/-- The scan finds the items that the rest begins with, and the end of the class. -/
theorem scanItems_eq (c : UInt8) {fuel : Nat} (hit : Bool) (here : p.toList.drop i = rest)
    (enough : p.size ≤ i + fuel) :
    scanItems p c fuel i hit =
      match readItems rest with
      | none => .unterminated
      | some (items, tail) =>
        .closed (hit || items.any fun item => item.covers c) (p.size - tail.length) := by
  induction fuel generalizing i hit rest with
  | zero =>
      obtain rfl : rest = [] := by
        rw [← here, List.drop_eq_nil_iff, Array.length_toList]
        omega
      rw [readItems_nil]
      rfl
  | succ fuel ih =>
      cases rest with
      | nil =>
          rw [scanItems, if_neg (Nat.not_lt.mpr (size_le_of_rest_nil here)), readItems_nil]
      | cons a rest =>
          have inside := lt_size_of_rest here
          have left : rest.length = p.size - (i + 1) := length_rest (rest_succ here)
          rw [scanItems_succ c fuel hit here, readItems_cons]
          by_cases closing : a = 0x5D
          · have next : p.size - rest.length = i + 1 := by omega
            simp [closing, next]
          · have suffix := firstItem_suffix a rest
            have shorter := suffix.length_le
            rw [if_neg closing, if_neg closing,
              ih _ (rest_of_suffix ((suffix.trans (List.suffix_cons a rest)).trans
                (rest_suffix here))) (by omega)]
            cases readItems (firstItem a rest).2 with
            | none => rfl
            | some read => simp [Bool.or_assoc]

/-- The scan of a class finds its items and its end, behind the opening bracket at `i`. -/
theorem scanClass_eq (c : UInt8) (here : p.toList.drop (i + 1) = rest) :
    scanClass p i c =
      match readClass rest with
      | none => .unterminated
      | some (negated, items, tail) =>
        .closed ((items.any fun item => item.covers c) != negated) (p.size - tail.length) := by
  cases rest with
  | nil => rw [scanClass, if_neg (Nat.not_lt.mpr (size_le_of_rest_nil here)), readClass]
  | cons mark rest =>
      rw [scanClass, if_pos (lt_size_of_rest here), getElem?_of_rest here, readClass]
      dsimp only
      by_cases negated : mark = 0x5E || mark = 0x21
      · rw [if_pos negated, if_pos negated,
          scanItems_eq c false (rest_succ here) (Nat.le_add_left _ _)]
        cases readItems rest with
        | none => rfl
        | some read => simp
      · rw [if_neg negated, if_neg negated, scanItems_eq c false here (Nat.le_add_left _ _)]
        cases readItems (mark :: rest) with
        | none => rfl
        | some read => simp

end Scan

/-! ### Moves -/

section Move

variable {p : Array UInt8} {i : Nat} {a : UInt8} {rest : Bytes}

/-- Behind the end of the pattern every byte is refused. -/
theorem move_of_rest_nil (c : UInt8) (here : p.toList.drop i = []) : move p i c = .refuse := by
  rw [move, if_neg (Nat.not_lt.mpr (size_le_of_rest_nil here))]

/-- A move does what the first token of the rest asks for. -/
theorem move_eq (c : UInt8) (here : p.toList.drop i = a :: rest) :
    move p i c =
      if (firstToken a rest).1 = .star then .star
      else if (firstToken a rest).1.accepts c then .accept (p.size - (firstToken a rest).2.length)
      else .refuse := by
  have inside := lt_size_of_rest here
  have left : rest.length = p.size - (i + 1) := length_rest (rest_succ here)
  have next : p.size - rest.length = i + 1 := by omega
  rw [move, if_pos inside, getElem?_of_rest here]
  dsimp only
  by_cases star : a = 0x2A
  · simp [firstToken, star]
  by_cases any : a = 0x3F
  · simp [firstToken, any, Token.accepts, next]
  by_cases opening : a = 0x5B
  · rw [if_neg star, if_neg any, if_pos opening, scanClass_eq c (rest_succ here)]
    cases read : readClass rest with
    | none => simp [firstToken, opening, read, Token.accepts, literal, next]
    | some found =>
        obtain ⟨negated, items, tail⟩ := found
        cases hit : (items.any fun item => item.covers c) != negated with
        | true => simp [firstToken, opening, read, Token.accepts, hit]
        | false => simp [firstToken, opening, read, Token.accepts, hit]
  by_cases escape : a = 0x5C
  · rcases rest with _ | ⟨escaped, tail⟩
    · simp only [List.length_nil] at left
      have last : p.size = i + 1 := by omega
      simp [firstToken, escape, Token.accepts, literal, last]
    · simp only [List.length_cons] at left
      have more : i + 1 < p.size := by omega
      have behind : p[i + 1] = escaped :=
        (Array.getElem?_eq_some_iff.mp (getElem?_of_rest (rest_succ here))).2
      have next : p.size - tail.length = i + 2 := by omega
      simp [firstToken, escape, Token.accepts, literal, more, behind, next]
  · simp [firstToken, star, any, opening, escape, Token.accepts, literal, next]

end Move

end TimedCache.Glob
