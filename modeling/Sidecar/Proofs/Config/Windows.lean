import Sidecar.Config

/-!
# Lengths of time in a configuration

A configuration counts its lengths of time in whole milliseconds and refuses more than an hour. The
count is a 64-bit word, and what is refused is the word: a length whose count exceeds it is taken
for what is left of the count (`window_withWindow`). So a configuration keeps to a length of time
(`KeepsTo`) unless its count exceeds a word by an hour at most (`keepsTo_iff_not_wraps`).
-/

namespace Sidecar

namespace Duration

/-- A duration without what is below a millisecond. -/
def wholeMillis (d : Duration) : Duration where
  seconds := d.seconds
  nanos := d.nanos / 1_000_000 * 1_000_000
  nanos_lt := by
    have := d.nanos_lt
    omega

/-- As many milliseconds as a duration has are the duration without what is below one. -/
theorem ofMillis_toMillis (d : Duration) : ofMillis d.toMillis = d.wholeMillis := by
  have hlt := d.nanos_lt
  have hseconds : (0 : Nat) + d.toMillis * 1_000_000 / 1_000_000_000 = d.seconds.toNat := by
    unfold toMillis
    omega
  have hnanos : d.toMillis * 1_000_000 % 1_000_000_000 = d.nanos / 1_000_000 * 1_000_000 := by
    unfold toMillis
    omega
  simp only [ofMillis, ofNanos, ofParts, wholeMillis, hseconds, hnanos, UInt64.ofNat_toNat]

/-- The whole milliseconds are those of the whole nanoseconds. -/
theorem toMillis_eq (d : Duration) : d.toMillis = d.toNanos / 1_000_000 := by
  unfold toMillis toNanos
  omega

end Duration

namespace Config

/-- Which of the lengths of time in a configuration is meant. -/
inductive Window where
  /-- How long lines of an error are collected. -/
  | stderr
  /-- How long a closing child gets. -/
  | grace
  deriving DecidableEq, Repr

/-- Sets a length of time. -/
def withWindow (c : Config) : Window → Duration → Config
  | .stderr, d => c.withStderrWindow d
  | .grace, d => c.withCloseGrace d

/-- A length of time as it is stored. -/
def window (c : Config) : Window → Duration
  | .stderr => c.stderrWindow
  | .grace => c.closeGrace

/-- Whether a configuration is valid but for a length of time: it is when there is no such time. -/
def ValidBut (c : Config) (w : Window) : Prop :=
  (c.withWindow w ⟨0, 0, by decide⟩).validate = .ok ()

/-- A configuration keeps to a length of time that it is given: it is valid just if there are at
most 3600000 whole milliseconds in it, and then they are what is stored. -/
structure KeepsTo (c : Config) (w : Window) (d : Duration) : Prop where
  bounded : (c.withWindow w d).validate = .ok () ↔ d.toNanos < 3_600_001_000_000
  kept : (c.withWindow w d).validate = .ok () → (c.withWindow w d).window w = d.wholeMillis

variable {c : Config} {w : Window} {d : Duration}

/-- A configuration is valid just if its command has a name, its buffer a size, and neither length
of time is more than an hour. -/
theorem validate_eq_ok_iff : c.validate = .ok () ↔ Text.isBlank c.name = false ∧ c.maxBuffer ≠ 0 ∧
    c.stderrWindowMs ≤ maxWindowMs ∧ c.closeGraceMs ≤ maxWindowMs := by
  have hrefusal : c.validate = .ok () ↔ c.refusal? = none := by
    unfold validate
    cases c.refusal? <;> simp
  rw [hrefusal, refusal?, ← UInt64.not_lt, ← UInt64.not_lt]
  cases Text.isBlank c.name
  · by_cases hbuffer : c.maxBuffer = 0
    · simp [hbuffer]
    · by_cases hwindow : maxWindowMs < c.stderrWindowMs <;> simp [hbuffer, hwindow]
  · simp

/-- The default configuration is valid. -/
theorem validate_default : validate {} = .ok () := by
  rw [validate_eq_ok_iff]
  decide +kernel

/-- Of a length of time that is set, the count is stored as a word. -/
theorem window_withWindow (c : Config) (w : Window) (d : Duration) :
    (c.withWindow w d).window w = .ofMillis (d.toMillis % UInt64.size) := by
  have hword : d.millisWord.toNat = d.toMillis % UInt64.size := UInt64.toNat_ofNat'
  cases w <;> simp only [withWindow, window, withStderrWindow, withCloseGrace, stderrWindow,
    closeGrace, hword]

/-- What is refused of a length of time is the word. -/
theorem validate_withWindow_iff (h : c.ValidBut w) (d : Duration) :
    (c.withWindow w d).validate = .ok () ↔
      d.toMillis % UInt64.size ≤ maxWindowMs.toNat := by
  have hword : d.millisWord ≤ maxWindowMs ↔
      d.toMillis % UInt64.size ≤ maxWindowMs.toNat := by
    rw [UInt64.le_iff_toNat_le, Duration.millisWord, UInt64.toNat_ofNat']
  rw [ValidBut, validate_eq_ok_iff] at h
  rw [validate_eq_ok_iff, ← hword]
  cases w with
  | stderr =>
    obtain ⟨hname, hbuffer, -, hgrace⟩ := h
    exact ⟨fun hvalid ↦ hvalid.2.2.1, fun hle ↦ ⟨hname, hbuffer, hle, hgrace⟩⟩
  | grace =>
    obtain ⟨hname, hbuffer, hstderr, -⟩ := h
    exact ⟨fun hvalid ↦ hvalid.2.2.2, fun hle ↦ ⟨hname, hbuffer, hstderr, hle⟩⟩

/-- Whether the count of a length of time is more than a word, and what is left of it in a word is
an hour at most. -/
def Wraps (d : Duration) : Prop :=
  UInt64.size ≤ d.toMillis ∧ d.toMillis % UInt64.size ≤ maxWindowMs.toNat

instance (d : Duration) : Decidable (Wraps d) := inferInstanceAs (Decidable (_ ∧ _))

/-- A length of time of at most 3600000 whole milliseconds. -/
theorem toNanos_lt_iff (d : Duration) :
    d.toNanos < 3_600_001_000_000 ↔ d.toMillis ≤ maxWindowMs.toNat := by
  have hmax : maxWindowMs.toNat = 3600000 := rfl
  rw [d.toMillis_eq, hmax]
  omega

/-- A count that does not wrap around is an hour at most just if its word is. -/
theorem toMillis_mod_le_iff (hwraps : ¬ Wraps d) :
    d.toMillis % UInt64.size ≤ maxWindowMs.toNat ↔ d.toMillis ≤ maxWindowMs.toNat := by
  constructor
  · intro hle
    have hlt : d.toMillis < UInt64.size := Nat.lt_of_not_le fun hsize ↦ hwraps ⟨hsize, hle⟩
    rwa [Nat.mod_eq_of_lt hlt] at hle
  · exact Nat.le_trans (Nat.mod_le _ _)

/-- An hour is less than a word. -/
theorem lt_size_of_le_maxWindowMs {n : Nat} (h : n ≤ maxWindowMs.toNat) : n < UInt64.size :=
  Nat.lt_of_le_of_lt h maxWindowMs.toNat_lt

/-- The word of a count is refused, not the count, and the word is what is stored. So a
configuration that is valid otherwise keeps to a length of time just if the count does not wrap
around to an hour at most. -/
theorem keepsTo_iff_not_wraps (h : c.ValidBut w) (d : Duration) :
    ((c.withWindow w d).validate = .ok () ↔ d.toMillis % UInt64.size ≤ maxWindowMs.toNat) ∧
      (c.withWindow w d).window w = .ofMillis (d.toMillis % UInt64.size) ∧
      (c.KeepsTo w d ↔ ¬ Wraps d) := by
  have hvalid := validate_withWindow_iff h d
  refine ⟨hvalid, window_withWindow c w d, ?_, fun hwraps ↦ ?_⟩
  · intro hkeeps hwraps
    have hshort := (toNanos_lt_iff d).mp (hkeeps.bounded.mp (hvalid.mpr hwraps.2))
    exact absurd (lt_size_of_le_maxWindowMs hshort) (Nat.not_lt.mpr hwraps.1)
  · have hbounded : (c.withWindow w d).validate = .ok () ↔ d.toMillis ≤ maxWindowMs.toNat :=
      hvalid.trans (toMillis_mod_le_iff hwraps)
    refine ⟨hbounded.trans (toNanos_lt_iff d).symm, fun hok ↦ ?_⟩
    rw [window_withWindow, Nat.mod_eq_of_lt (lt_size_of_le_maxWindowMs (hbounded.mp hok)),
      Duration.ofMillis_toMillis]

/-- With an hour of grace that is a millisecond too long the default configuration is refused; for
another time of grace it is not, but the count of that time must not wrap around. -/
theorem keepsTo_of_hour :
    ValidBut { closeGraceMs := 3600001 } .grace ∧
      KeepsTo { closeGraceMs := 3600001 } .grace ⟨3600, 999_999, by decide⟩ ∧
      KeepsTo { closeGraceMs := 3600001 } .grace ⟨3600, 1_000_000, by decide⟩ ∧
      ¬ KeepsTo { closeGraceMs := 3600001 } .grace ⟨18446744073709552, 0, by decide⟩ := by
  have hvalid : ValidBut { closeGraceMs := 3600001 } .grace := by
    rw [ValidBut, validate_eq_ok_iff]
    decide +kernel
  have hkeeps := fun d ↦ (keepsTo_iff_not_wraps hvalid d).2.2
  refine ⟨hvalid, (hkeeps _).mpr ?_, (hkeeps _).mpr ?_, fun hlong ↦ (hkeeps _).mp hlong ?_⟩
  all_goals decide +kernel

/-- The least number of whole seconds whose count is more than a word counts as 384 milliseconds,
and the default configuration is valid with it. -/
theorem not_keepsTo_of_long :
    (ValidBut {} .stderr ∧
      (withWindow {} .stderr ⟨18446744073709552, 0, by decide⟩).validate = .ok () ∧
      (withWindow {} .stderr ⟨18446744073709552, 0, by decide⟩).window .stderr = .ofMillis 384 ∧
      ¬ KeepsTo {} .stderr ⟨18446744073709552, 0, by decide⟩) ∧
    ValidBut {} .grace ∧
      (withWindow {} .grace ⟨18446744073709552, 0, by decide⟩).validate = .ok () ∧
      (withWindow {} .grace ⟨18446744073709552, 0, by decide⟩).window .grace = .ofMillis 384 ∧
      ¬ KeepsTo {} .grace ⟨18446744073709552, 0, by decide⟩ := by
  have hdefault (w : Window) : ValidBut {} w := by
    rw [ValidBut, validate_eq_ok_iff]
    cases w <;> decide +kernel
  have hlong (w : Window) :
      (withWindow {} w ⟨18446744073709552, 0, by decide⟩).validate = .ok () := by
    rw [validate_withWindow_iff (hdefault w)]
    decide
  have hnot (w : Window) : ¬ KeepsTo {} w ⟨18446744073709552, 0, by decide⟩ := by
    intro hkeeps
    exact absurd (hkeeps.bounded.mp (hlong w)) (by decide)
  exact ⟨⟨hdefault _, hlong _, window_withWindow .., hnot _⟩,
    hdefault _, hlong _, window_withWindow .., hnot _⟩

end Config
end Sidecar
