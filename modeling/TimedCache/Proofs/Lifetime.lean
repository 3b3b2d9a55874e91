import TimedCache.Entry
import TimedCache.Remote.Client

/-!
# Longer lifetimes

What is written for a longer time should never be gone sooner.  A backend in the process compares
the clock with an expiry (`Duration.Outlives`), a backend on a server sends a number of milliseconds
with the command (`Duration.OutlivesOnServer`).  In both, it is the **lifetime** of the write that
counts, whether the write named it or took it as the default.

**Where the law holds.**  The sum of the clock and a lifetime stops at the last representable time,
and that keeps the order.  The whole milliseconds of a lifetime, however, are cut to 64 bits before
the sum, and this does not: from `2 ^ 64` milliseconds on, a lifetime starts again from nothing.  So
a lifetime outlives all shorter ones exactly if it stays below that bound, or if what is left of it
still reaches the last representable time (`Duration.outlives_shorter_iff`).
-/

namespace TimedCache

namespace Options

/-- A write that names a lifetime has it. -/
theorem lifetime_of_isZero_eq_false (options : Options) {ttl : Duration}
    (named : ttl.isZero = false) : options.lifetime ttl = some ttl := by
  simp [lifetime, Duration.orDefault, named]

end Options

namespace Duration

/-- Of two entries that are written at `now`, one for `long` and one for `short`, the first is live
whenever the second is. -/
def Outlives (now : Nat) (long short : Duration) : Prop :=
  ∀ (first second : Options) (ttl other : Duration),
    first.lifetime ttl = some long → second.lifetime other = some short →
      ∀ (value content : Bytes) (later : Nat), now ≤ later →
        (Entry.write now content (second.lifetime other)).isExpired later = false →
          (Entry.write now value (first.lifetime ttl)).isExpired later = false

/-- A write for `long` is sent with at least as many milliseconds as one for `short`. -/
def OutlivesOnServer (long short : Duration) : Prop :=
  ∀ (first second : Options) (ttl other : Duration),
    first.lifetime ttl = some long → second.lifetime other = some short →
      ∃ millis sent, Remote.Client.lifetimeMillis first ttl = some millis ∧
        Remote.Client.lifetimeMillis second other = some sent ∧ sent ≤ millis

variable {now : Nat} {long short : Duration}

/-- The whole milliseconds of a longer span are not fewer. -/
theorem wholeMillis_le (le : short.nanos ≤ long.nanos) : short.wholeMillis ≤ long.wholeMillis :=
  Nat.div_le_div_right le

/-- Of the milliseconds of a span, a part makes a span that is not longer. -/
theorem ofMillis_le {millis : Nat} (le : millis ≤ long.wholeMillis) :
    (ofMillis millis).nanos ≤ long.nanos :=
  calc millis * 1000000
      ≤ long.wholeMillis * 1000000 := Nat.mul_le_mul_right 1000000 le
    _ ≤ long.nanos := Nat.div_mul_le_self long.nanos 1000000

theorem isZero_ofMillis_succ (millis : Nat) : (ofMillis (millis + 1)).isZero = false := by
  have long : (ofMillis (millis + 1)).nanos ≠ 0 :=
    Nat.mul_ne_zero (Nat.succ_ne_zero millis) (by decide)
  exact decide_eq_false long

/-- Spans with a whole millisecond in them are not empty. -/
theorem isZero_eq_false_of_wholeMillis (whole : long.wholeMillis ≠ 0) : long.isZero = false := by
  refine decide_eq_false fun empty => whole ?_
  rw [wholeMillis, empty]

/-! ### In the process -/

/-- An expiry beyond the last representable time is moved there. -/
theorem expiry_eq_min (now : Nat) (lifetime : Duration) :
    Entry.expiry now lifetime = min (now + lifetime.wholeMillis % word64) (word64 - 1) := rfl

/-- What is written lives up to its expiry. -/
theorem isExpired_write_iff {later : Nat} {value : Bytes} {lifetime : Duration} :
    (Entry.write now value (some lifetime)).isExpired later = false ↔
      later < Entry.expiry now lifetime := by
  show decide (Entry.expiry now lifetime ≤ later) = false ↔ later < Entry.expiry now lifetime
  rw [decide_eq_false_iff_not, Nat.not_le]

/-- A lifetime that ends no sooner outlives the other one. -/
theorem outlives_of_expiry_le (le : Entry.expiry now short ≤ Entry.expiry now long) :
    Outlives now long short := by
  intro first second ttl other lives lives' value content later _ live
  rw [lives'] at live
  rw [lives]
  have before : later < Entry.expiry now short := isExpired_write_iff.mp live
  exact isExpired_write_iff.mpr (Nat.lt_of_lt_of_le before le)

/-- A lifetime outlives another one only if it ends no sooner. -/
theorem Outlives.expiry_le (outlives : Outlives now long short) (lasts : long.isZero = false)
    (lasts' : short.isZero = false) : Entry.expiry now short ≤ Entry.expiry now long := by
  refine Nat.le_of_not_lt fun sooner => ?_
  -- The longer one ends below the bound, so it has not ended before it was written.
  have after : now ≤ Entry.expiry now long := by
    rw [expiry_eq_min] at sooner ⊢
    rw [expiry_eq_min] at sooner
    omega
  have lives := Options.standard.lifetime_of_isZero_eq_false lasts
  have lives' := Options.standard.lifetime_of_isZero_eq_false lasts'
  have live := outlives .standard .standard long short lives lives' [] [] (Entry.expiry now long)
    after (by rw [lives']; exact isExpired_write_iff.mpr sooner)
  rw [lives, isExpired_write_iff] at live
  exact Nat.lt_irrefl _ live

/-- What is left of a lifetime after the cut, if that is not all of it, makes a shorter lifetime that
ends later. -/
theorem outlives_shorter_iff_process :
    (∀ short : Duration, short.nanos ≤ long.nanos → Outlives now long short) ↔
      long.wholeMillis < word64 ∨ word64 - 1 ≤ now + long.wholeMillis % word64 := by
  constructor
  · intro outlives
    refine Decidable.byContradiction fun wrapped => ?_
    rw [not_or, Nat.not_lt, Nat.not_le] at wrapped
    obtain ⟨large, below⟩ := wrapped
    have shorter : long.wholeMillis % word64 + 1 ≤ long.wholeMillis := by omega
    have lasts : long.isZero = false := isZero_eq_false_of_wholeMillis (by omega)
    have le := (outlives _ (ofMillis_le shorter)).expiry_le lasts (isZero_ofMillis_succ _)
    have whole : (long.wholeMillis % word64 + 1) % word64 = long.wholeMillis % word64 + 1 :=
      Nat.mod_eq_of_lt (by omega)
    rw [expiry_eq_min, expiry_eq_min, wholeMillis_ofMillis, whole] at le
    omega
  · intro bounded short le
    have millis := wholeMillis_le le
    apply outlives_of_expiry_le
    rw [expiry_eq_min, expiry_eq_min]
    rcases bounded with small | reaches
    · rw [Nat.mod_eq_of_lt small, Nat.mod_eq_of_lt (Nat.lt_of_le_of_lt millis small)]
      omega
    · omega

/-! ### On a server -/

/-- The milliseconds that are sent with a write of some lifetime. -/
def sentMillis (lifetime : Duration) : Nat :=
  Max.max (lifetime.wholeMillis % word64) 1

theorem lifetimeMillis_of_lifetime {options : Options} {ttl lifetime : Duration}
    (lives : options.lifetime ttl = some lifetime) :
    Remote.Client.lifetimeMillis options ttl = some lifetime.sentMillis := by
  rw [Remote.Client.lifetimeMillis, lives]
  rfl

theorem outlivesOnServer_iff (lasts : long.isZero = false) (lasts' : short.isZero = false) :
    OutlivesOnServer long short ↔ short.sentMillis ≤ long.sentMillis := by
  constructor
  · intro outlives
    have lives := Options.standard.lifetime_of_isZero_eq_false lasts
    have lives' := Options.standard.lifetime_of_isZero_eq_false lasts'
    obtain ⟨millis, sent, first, second, le⟩ := outlives .standard .standard long short lives lives'
    rw [lifetimeMillis_of_lifetime lives] at first
    rw [lifetimeMillis_of_lifetime lives'] at second
    cases first
    cases second
    exact le
  · intro le first second ttl other lives lives'
    exact ⟨_, _, lifetimeMillis_of_lifetime lives, lifetimeMillis_of_lifetime lives', le⟩

/-- On a server the same is so, whatever the clock reads: the cut leaves fewer milliseconds. -/
theorem outlivesOnServer_shorter_iff :
    (∀ short : Duration, short.nanos ≤ long.nanos → OutlivesOnServer long short) ↔
      long.wholeMillis < word64 ∨ long.wholeMillis % word64 = word64 - 1 := by
  have word : word64 = 2 ^ 64 := rfl
  have cut (millis : Nat) : millis % word64 < word64 := Nat.mod_lt millis (by omega)
  constructor
  · intro outlives
    refine Decidable.byContradiction fun wrapped => ?_
    rw [not_or, Nat.not_lt] at wrapped
    obtain ⟨large, below⟩ := wrapped
    -- One millisecond more than what is sent for the longer one.
    have sent : long.sentMillis + 1 < word64 ∧ long.sentMillis + 1 ≤ long.wholeMillis := by
      have kept := cut long.wholeMillis
      unfold sentMillis
      omega
    have lasts : long.isZero = false := isZero_eq_false_of_wholeMillis (by omega)
    have lasts' := isZero_ofMillis_succ long.sentMillis
    have le := (outlivesOnServer_iff lasts lasts').mp (outlives _ (ofMillis_le sent.2))
    have more : (ofMillis (long.sentMillis + 1)).sentMillis = long.sentMillis + 1 := by
      rw [sentMillis, wholeMillis_ofMillis, Nat.mod_eq_of_lt sent.1]
      omega
    omega
  · intro bounded short le first second ttl other lives lives'
    have millis := wholeMillis_le le
    refine ⟨_, _, lifetimeMillis_of_lifetime lives, lifetimeMillis_of_lifetime lives', ?_⟩
    unfold sentMillis
    rcases bounded with small | reaches
    · rw [Nat.mod_eq_of_lt small, Nat.mod_eq_of_lt (Nat.lt_of_le_of_lt millis small)]
      omega
    · have kept := cut short.wholeMillis
      omega

/-- **A longer lifetime ends no sooner**, exactly as long as it is not cut: below `2 ^ 64` whole
milliseconds, or if the rest still reaches the last representable time. -/
theorem outlives_shorter_iff (now : Nat) (long : Duration) :
    ((∀ short : Duration, short.nanos ≤ long.nanos → Outlives now long short) ↔
        long.wholeMillis < word64 ∨ word64 - 1 ≤ now + long.wholeMillis % word64) ∧
      ((∀ short : Duration, short.nanos ≤ long.nanos → OutlivesOnServer long short) ↔
        long.wholeMillis < word64 ∨ long.wholeMillis % word64 = word64 - 1) :=
  ⟨outlives_shorter_iff_process, outlivesOnServer_shorter_iff⟩

/-- What is written for more than five hundred million years is gone before what is written for a
second: after 384 milliseconds, which is also what a server is told. -/
theorem not_outlives_second :
    (ofSecs 1).nanos ≤ (ofSecs 18446744073709552).nanos ∧
      (Entry.write 1700000000000 [] (Options.standard.lifetime (ofSecs 1))).isExpired
        1700000000500 = false ∧
      (Entry.write 1700000000000 [] (Options.standard.lifetime
        (ofSecs 18446744073709552))).isExpired 1700000000500 = true ∧
      Remote.Client.lifetimeMillis .standard (ofSecs 1) = some 1000 ∧
      Remote.Client.lifetimeMillis .standard (ofSecs 18446744073709552) = some 384 := by
  decide

end Duration

/-! ### Until the end -/

/-- What is written is live at any time before it ends, if it ends at all. -/
theorem Entry.isExpired_write_of_ahead {now later : Nat} {value : Bytes} {lifetime : Option Duration}
    (ahead : ∀ span, lifetime = some span → later < Entry.expiry now span) :
    (Entry.write now value lifetime).isExpired later = false := by
  cases lifetime with
  | none => rfl
  | some span => exact Duration.isExpired_write_iff.mpr (ahead span rfl)

/-- What is written later for the same time ends no sooner. -/
theorem Entry.expiry_mono {now later : Nat} (le : now ≤ later) (lifetime : Duration) :
    Entry.expiry now lifetime ≤ Entry.expiry later lifetime := by
  rw [Duration.expiry_eq_min, Duration.expiry_eq_min]
  omega

end TimedCache
