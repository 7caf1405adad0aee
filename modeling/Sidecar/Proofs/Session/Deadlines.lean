import Sidecar.Proofs.Config.Windows
import Sidecar.Session.State

/-!
# Deadlines

A clock counts whole seconds in a signed 64-bit word, and the nanoseconds beyond them.
`Moment.after?` adds a length of time with both sums checked; it is out of range only where the
moment it comes to is (`Moment.after?_eq_some_iff`).

No length of time in a valid configuration is more than an hour (`Config.toNanos_window_le`). So
while a clock has an hour left all deadlines are computed (`Config.keepsTime`).
-/

namespace Sidecar

/-- A moment by a clock. -/
structure Moment where
  seconds : Int64
  /-- The nanoseconds beyond the whole seconds. -/
  nanos : Nat
  nanos_lt : nanos < 1_000_000_000

namespace Moment

/-- The nanoseconds since the beginning of the clock. -/
def toNanos (m : Moment) : Int := m.seconds.toInt * 1_000_000_000 + m.nanos

/-- The first nanosecond that a clock cannot count. -/
def endNanos : Nat := 0x8000_0000_0000_0000 * 1_000_000_000

/-- So many nanoseconds after the beginning of the clock. -/
def ofNanos (n : Nat) : Moment where
  seconds := Int64.ofNat (n / 1_000_000_000)
  nanos := (Duration.ofNanos n).nanos
  nanos_lt := (Duration.ofNanos n).nanos_lt

/-- A later second, if it is a signed word. -/
def secondsAfter? (seconds : Int64) (more : Nat) : Option Int64 :=
  if seconds.toInt + more < 0x8000_0000_0000_0000 then some (Int64.ofInt (seconds.toInt + more))
  else none

/-- The moment a while after another one, if its seconds are in range. -/
def after? (m : Moment) (d : Duration) : Option Moment := do
  let seconds ← secondsAfter? m.seconds d.seconds.toNat
  if h : m.nanos + d.nanos < 1_000_000_000 then some ⟨seconds, m.nanos + d.nanos, h⟩
  else
    let seconds ← secondsAfter? seconds 1
    some ⟨seconds, m.nanos + d.nanos - 1_000_000_000, by
      have := m.nanos_lt
      have := d.nanos_lt
      omega⟩

variable {m later : Moment} {d : Duration} {seconds second : Int64} {n : Nat}

/-- Moments with the same nanoseconds are the same. -/
theorem toNanos_inj : m.toNanos = later.toNanos ↔ m = later := by
  refine ⟨fun h ↦ ?_, congrArg toNanos⟩
  obtain ⟨seconds, nanos, hlt⟩ := m
  obtain ⟨second, nanos', hlt'⟩ := later
  simp only [toNanos] at h
  have hseconds : seconds = second := Int64.toInt_inj.mp (by omega)
  have hnanos : nanos = nanos' := by omega
  subst hseconds hnanos
  rfl

/-- A later second is computed just if it is a signed word. -/
theorem secondsAfter?_eq_some_iff :
    secondsAfter? seconds n = some second ↔ second.toInt = seconds.toInt + n := by
  have hleast := seconds.le_toInt
  have hmost := second.toInt_lt
  unfold secondsAfter?
  split
  · next h =>
    have hsum : (Int64.ofInt (seconds.toInt + n)).toInt = seconds.toInt + n := by
      apply Int64.toInt_ofInt_of_le <;> omega
    rw [Option.some_inj, ← Int64.toInt_inj, hsum]
    exact eq_comm
  · next h =>
    simp only [reduceCtorEq, false_iff]
    omega

/-- What is computed is the moment a while later. -/
theorem toNanos_of_after? (h : m.after? d = some later) :
    later.toNanos = m.toNanos + d.toNanos := by
  rw [after?, Option.bind_eq_bind, Option.bind_eq_some_iff] at h
  obtain ⟨second, hsecond, h⟩ := h
  rw [secondsAfter?_eq_some_iff] at hsecond
  split at h
  · cases h
    simp only [toNanos, Duration.toNanos]
    omega
  · rw [Option.bind_eq_some_iff] at h
    obtain ⟨next, hnext, h⟩ := h
    rw [secondsAfter?_eq_some_iff] at hnext
    cases h
    simp only [toNanos, Duration.toNanos]
    omega

/-- Seconds that are not computed are no signed word. -/
theorem le_of_secondsAfter? (h : secondsAfter? seconds n = none) :
    0x8000_0000_0000_0000 ≤ seconds.toInt + n := by
  unfold secondsAfter? at h
  split at h
  · cases h
  · omega

/-- Where nothing is computed the clock does not count as far. -/
theorem le_of_after? (h : m.after? d = none) : (endNanos : Int) ≤ m.toNanos + d.toNanos := by
  have hend : (endNanos : Int) = 0x8000_0000_0000_0000 * 1_000_000_000 := rfl
  rw [after?, Option.bind_eq_bind, Option.bind_eq_none_iff] at h
  simp only [toNanos, Duration.toNanos]
  cases hsecond : secondsAfter? m.seconds d.seconds.toNat with
  | none =>
    have hover := le_of_secondsAfter? hsecond
    omega
  | some second =>
    have hnone := h second hsecond
    rw [secondsAfter?_eq_some_iff] at hsecond
    split at hnone
    · cases hnone
    · cases hnext : secondsAfter? second 1 with
      | none =>
        have hover := le_of_secondsAfter? hnext
        omega
      | some next =>
        rw [hnext] at hnone
        cases hnone

/-- A moment before the end of the clock is computed. -/
theorem exists_after? (h : m.toNanos + d.toNanos < endNanos) :
    ∃ later, m.after? d = some later := by
  cases hafter : m.after? d with
  | none => exact absurd (le_of_after? hafter) (Int.not_le_of_gt h)
  | some later => exact ⟨later, rfl⟩

/-- The moment a while after another one is computed just if there is such a moment. -/
theorem after?_eq_some_iff :
    m.after? d = some later ↔ later.toNanos = m.toNanos + d.toNanos := by
  refine ⟨toNanos_of_after?, fun h ↦ ?_⟩
  have hend : m.toNanos + d.toNanos < endNanos := by
    have hmost := later.seconds.toInt_lt
    have hlt := later.nanos_lt
    rw [← h, endNanos, toNanos]
    omega
  obtain ⟨moment, hafter⟩ := exists_after? hend
  rw [hafter, toNanos_inj.mp ((toNanos_of_after? hafter).trans h.symm)]

/-- A clock comes no further than the last nanosecond of its last second. -/
example :
    ((⟨Int64.maxValue, 999_999_998, by decide⟩ : Moment).after? ⟨0, 1, by decide⟩).isSome ∧
      ((⟨Int64.maxValue, 999_999_999, by decide⟩ : Moment).after? ⟨0, 1, by decide⟩).isNone := by
  decide

/-- The moments after the beginning of a clock count its nanoseconds. -/
theorem toNanos_ofNanos (h : n < endNanos) : (ofNanos n).toNanos = n := by
  unfold endNanos at h
  have hseconds : (Int64.ofNat (n / 1_000_000_000)).toInt = (n / 1_000_000_000 : Nat) := by
    apply Int64.toInt_ofNat_of_lt
    omega
  have hnanos : (Duration.ofNanos n).nanos = n % 1_000_000_000 := rfl
  simp only [toNanos, ofNanos, hseconds, hnanos]
  omega

/-- A while later is as many nanoseconds later. -/
theorem after?_ofNanos (h : n + d.toNanos < endNanos) :
    (ofNanos n).after? d = some (ofNanos (n + d.toNanos)) := by
  rw [after?_eq_some_iff, toNanos_ofNanos h, toNanos_ofNanos (by omega)]
  exact Int.natCast_add n d.toNanos

end Moment

/-! ## Lengths of time -/

/-- An hour in nanoseconds. -/
def hourNanos : Nat := 3_600_000_000_000

/-- A count of milliseconds up to an hour is that many milliseconds. -/
theorem Duration.toNanos_ofMillis {n : Nat} (h : n ≤ Config.maxWindowMs.toNat) :
    (ofMillis n).toNanos = n * 1_000_000 := by
  have hmax : Config.maxWindowMs.toNat = 3600000 := rfl
  have hseconds : 0 + n * 1_000_000 / 1_000_000_000 < UInt64.size := by
    have hsize : UInt64.size = 18446744073709551616 := rfl
    omega
  simp only [ofMillis, ofNanos, ofParts, toNanos, UInt64.toNat_ofNat_of_lt' hseconds]
  omega

namespace Config

variable {c : Config}

/-- A count of milliseconds that is not refused is an hour at most. -/
theorem toNanos_ofMillis_le {millis : UInt64} (h : millis ≤ maxWindowMs) :
    (Duration.ofMillis millis.toNat).toNanos ≤ hourNanos := by
  have hle := UInt64.le_iff_toNat_le.mp h
  have hmax : maxWindowMs.toNat = 3600000 := rfl
  rw [Duration.toNanos_ofMillis hle, hourNanos]
  omega

/-- No length of time in a valid configuration is more than an hour. -/
theorem toNanos_window_le (h : c.validate = .ok ()) (w : Window) :
    (c.window w).toNanos ≤ hourNanos := by
  obtain ⟨-, -, hstderr, hgrace⟩ := validate_eq_ok_iff.mp h
  cases w with
  | stderr => exact toNanos_ofMillis_le hstderr
  | grace => exact toNanos_ofMillis_le hgrace

end Config

/-! ## Sessions -/

/-- More than an hour is left on the clock of a session. -/
def Session.HasHour (s : Session) : Prop := s.now + hourNanos < Moment.endNanos

/-- A moment of a session is a length of time from now, and a clock computes it. -/
def Session.Reaches (s : Session) (length : Duration) (moment : Nat) : Prop :=
  moment = s.now + length.toNanos ∧
    (Moment.ofNanos s.now).after? length = some (Moment.ofNanos moment)

/-- With an hour left nothing that takes no longer is out of range. -/
theorem Session.HasHour.reaches {s : Session} (h : s.HasHour) {length : Duration}
    (hle : length.toNanos ≤ hourNanos) : s.Reaches length (s.now + length.toNanos) := by
  refine ⟨rfl, Moment.after?_ofNanos ?_⟩
  unfold HasHour at h
  omega

/-- As long as there is an hour left on a clock, the lengths of time of a configuration end in
range, and in a session with it whoever waits for a length of time computes when it ends. -/
structure Config.KeepsTime (c : Config) : Prop where
  /-- Any clock computes when a length of time ends. -/
  ends (m : Moment) (w : Window) (hour : m.toNanos + hourNanos < Moment.endNanos) :
    ∃ later, m.after? (c.window w) = some later ∧
      later.toNanos = m.toNanos + (c.window w).toNanos
  /-- A closing child gets its time to exit. -/
  linger {s : Session} {g : Supervisor.Generation} {before : Supervisor.Warden}
    (hconfig : s.supervisor.config = c) (hwarden : s.supervisor.warden = .lingering g)
    (hbefore : s.supervisor.warden ≠ before) (hour : s.HasHour) :
    s.Reaches c.closeGrace (s.timeWarden before).wardenLimit
  /-- The rest of the output of a child that has ended is waited for. -/
  drain {s : Session} {g : Supervisor.Generation} {before : Supervisor.Warden}
    (hconfig : s.supervisor.config = c) (hwarden : s.supervisor.warden = .draining g)
    (hbefore : s.supervisor.warden ≠ before) (hour : s.HasHour) :
    s.Reaches (.ofNanos Session.drainTime) (s.timeWarden before).wardenLimit
  /-- The lines of an error are collected. -/
  collect {s : Session} {id : Supervisor.CallerId} {g : Supervisor.Generation}
    {lines : List Bytes} (hconfig : s.supervisor.config = c)
    (hcaller : s.supervisor.callers.get? id = some (.collecting g lines)) (hour : s.HasHour) :
    ∃ limit, (s.timeCaller id).limits.get? id = some limit ∧
      s.Reaches c.stderrWindow limit.moment

/-- With a valid configuration all that is waited for ends in range. -/
theorem Config.keepsTime {c : Config} (h : c.validate = .ok ()) : c.KeepsTime where
  ends m w hour := by
    have hle := toNanos_window_le h w
    obtain ⟨later, hlater⟩ := Moment.exists_after? (m := m) (d := c.window w) (by omega)
    exact ⟨later, hlater, Moment.toNanos_of_after? hlater⟩
  linger {s g before} hconfig hwarden hbefore hour := by
    rw [hwarden] at hbefore
    have hlimit : (s.timeWarden before).wardenLimit = s.now + c.closeGrace.toNanos := by
      simp only [Session.timeWarden, hwarden, if_neg hbefore, hconfig]
    rw [hlimit]
    exact hour.reaches (toNanos_window_le h .grace)
  drain {s g before} hconfig hwarden hbefore hour := by
    rw [hwarden] at hbefore
    have hlimit : (s.timeWarden before).wardenLimit =
        s.now + (Duration.ofNanos Session.drainTime).toNanos := by
      simp only [Session.timeWarden, hwarden, if_neg hbefore]
      rfl
    rw [hlimit]
    exact hour.reaches (by decide)
  collect {s id g lines} hconfig hcaller hour := by
    refine ⟨⟨s.now + c.stderrWindow.toNanos, c.stderrWindow⟩, ?_,
      hour.reaches (toNanos_window_le h .stderr)⟩
    simp only [Session.timeCaller, hcaller, hconfig, Table.get?_set, if_pos]

end Sidecar
