import Mathlib.Data.List.Infix
import Sidecar.Stream.Sink

/-!
# Writing to a sink that takes what it likes

A sink may take fewer bytes than a write offers, take none, be interrupted or fail, and it may do so
at any byte. What a writer has done with it is told call by call (`Does`), and each call by what it
came to. Writing all bytes goes on until the first call that fails (`Ends`), and something is left
over exactly when there was one (`Delivers`). Pieces that are written one after the other deliver
what their concatenation would, so that a frame that is never put together is written as one
(`writeFramed_delivers`).
-/

namespace Sidecar.Sink

/-- A call on a sink, with what it came to. -/
inductive Event where
  /-- A write of some bytes: how many of them were taken, or an error. -/
  | wrote (bytes : Bytes) (result : Except IoFault Nat)
  | flushed (result : Except IoFault Unit)

namespace Event

/-- The call as the sink records it. -/
def call : Event → Call
  | .wrote bytes _ => .write bytes.length
  | .flushed _ => .flush

/-- The bytes that the sink took. -/
def taken : Event → Bytes
  | .wrote bytes (.ok n) => bytes.take n
  | _ => []

/-- The error that ends the writing with this call, if it does: that of a write, unless it was only
interrupted, or of a flush, and that of a write of which nothing is taken. -/
def failure? : Event → Option IoFault
  | .wrote _ (.ok n) => if n = 0 then some nothingTaken else none
  | .wrote _ (.error fault) => if fault.kind = .interrupted then none else some fault
  | .flushed (.ok ()) => none
  | .flushed (.error fault) => some fault

end Event

/-- The bytes that were taken in some calls. -/
def takenIn (events : List Event) : Bytes := events.flatMap Event.taken

/-- Calls are made on a sink, one after the other, and each comes to what the sink makes of it. -/
inductive Does : Sink → List Event → Sink → Prop where
  | nothing (s : Sink) : Does s [] s
  | write {s t u : Sink} {bytes : Bytes} {result : Except IoFault Nat} {events : List Event}
      (hwrite : s.write bytes = (result, t)) (hrest : Does t events u) :
      Does s (.wrote bytes result :: events) u
  | flush {s t u : Sink} {result : Except IoFault Unit} {events : List Event}
      (hflush : s.flush = (result, t)) (hrest : Does t events u) :
      Does s (.flushed result :: events) u

/-- Calls that have come to a result: none of them failed, or the last one did. -/
inductive Ends : List Event → Except IoFault Unit → Prop where
  | ok {events : List Event} (h : ∀ event ∈ events, event.failure? = none) : Ends events (.ok ())
  | error {events : List Event} {last : Event} {fault : IoFault}
      (h : ∀ event ∈ events, event.failure? = none) (hlast : last.failure? = some fault) :
      Ends (events ++ [last]) (.error fault)

/-- Some bytes are handed to a sink by writes that come to a result, and are all taken exactly when
that is a success. -/
structure Delivers (s : Sink) (bytes : Bytes) (events : List Event) (result : Except IoFault Unit)
    (t : Sink) : Prop where
  does : Does s events t
  ends : Ends events result
  writes : ∀ r, .flushed r ∉ events
  left : ∃ rest, takenIn events ++ rest = bytes ∧ (rest = [] ↔ result = .ok ())

/-- The calls for some bytes and a flush behind them, which is left out when a write has failed. -/
inductive Frames (s : Sink) (bytes : Bytes) : List Event → Except IoFault Unit → Sink → Prop where
  | cut {writes : List Event} {fault : IoFault} {t : Sink}
      (hwrites : Delivers s bytes writes (.error fault) t) : Frames s bytes writes (.error fault) t
  | whole {writes : List Event} {result : Except IoFault Unit} {t u : Sink}
      (hwrites : Delivers s bytes writes (.ok ()) t) (hflush : t.flush = (result, u)) :
      Frames s bytes (writes ++ [.flushed result]) result u

section

variable {s t u : Sink} {bytes more : Bytes} {events events' : List Event} {event : Event}
  {result : Except IoFault Unit} {fault : IoFault}

theorem takenIn_append (events events' : List Event) :
    takenIn (events ++ events') = takenIn events ++ takenIn events' :=
  List.flatMap_append

/-! ## Calls one after the other -/

/-- Calls are followed by calls. -/
theorem Does.trans (h : Does s events t) (h' : Does t events' u) :
    Does s (events ++ events') u := by
  induction h with
  | nothing => exact h'
  | write hwrite _ ih => exact .write hwrite (ih h')
  | flush hflush _ ih => exact .flush hflush (ih h')

/-- A write adds to what the sink has taken, and is recorded. -/
theorem write_effect {r : Except IoFault Nat} (h : s.write bytes = (r, t)) :
    t.taken = s.taken ++ (Event.wrote bytes r).taken ∧
      t.calls = (Event.wrote bytes r).call :: s.calls := by
  obtain ⟨script, flushFault, taken, calls⟩ := s
  cases script with
  | nil =>
    cases h
    simp [Event.taken, Event.call]
  | cons response script =>
    cases response with
    | take n =>
      cases h
      constructor
      · show taken ++ bytes.take n = taken ++ bytes.take (min n bytes.length)
        rw [← List.take_eq_take_min]
      · rfl
    | fail fault =>
      cases h
      simp [Event.taken, Event.call]

/-- A flush is recorded and takes nothing. -/
theorem flush_effect (h : s.flush = (result, t)) :
    t.taken = s.taken ∧ t.calls = .flush :: s.calls := by
  obtain ⟨script, flushFault, taken, calls⟩ := s
  cases flushFault with
  | none =>
    cases h
    exact ⟨rfl, rfl⟩
  | some fault =>
    cases h
    exact ⟨rfl, rfl⟩

/-- What a sink has taken grows by what the calls have handed over. -/
theorem Does.taken (h : Does s events t) : t.taken = s.taken ++ takenIn events := by
  induction h with
  | nothing => exact (List.append_nil _).symm
  | write hwrite _ ih =>
    rw [ih, (write_effect hwrite).1, List.append_assoc]
    rfl
  | flush hflush _ ih =>
    rw [ih, (flush_effect hflush).1]
    rfl

/-- The calls are those that the sink has recorded since. -/
theorem Does.calls (h : Does s events t) :
    t.calls = (events.map Event.call).reverse ++ s.calls := by
  induction h with
  | nothing => rfl
  | write hwrite _ ih => simp [ih, (write_effect hwrite).2]
  | flush hflush _ ih => simp [ih, (flush_effect hflush).2, Event.call]

/-! ## The end of the calls -/

/-- Calls of which none failed may be followed by others. -/
theorem Ends.append (h : Ends events (.ok ())) (h' : Ends events' result) :
    Ends (events ++ events') result := by
  cases h with
  | ok hfirst =>
    cases h' with
    | ok hthen =>
      refine .ok fun event hmem ↦ ?_
      rcases List.mem_append.mp hmem with hmem | hmem
      · exact hfirst event hmem
      · exact hthen event hmem
    | error hthen hlast =>
      rw [← List.append_assoc]
      refine .error (fun event hmem ↦ ?_) hlast
      rcases List.mem_append.mp hmem with hmem | hmem
      · exact hfirst event hmem
      · exact hthen event hmem

/-- After a call that failed there is none, and its error is the result. -/
theorem Ends.last (h : Ends events result) {before after : List Event}
    (hsplit : events = before ++ event :: after) (hfailure : event.failure? = some fault) :
    after = [] ∧ result = .error fault := by
  cases h with
  | ok hnone =>
    have hmem : event ∈ events := by rw [hsplit]; simp
    rw [hnone event hmem] at hfailure
    cases hfailure
  | @error front last fault' hnone hlast =>
    rcases List.eq_nil_or_concat after with rfl | ⟨after', last', rfl⟩
    · obtain ⟨rfl, heq⟩ := List.append_inj' hsplit rfl
      obtain rfl := (List.cons.inj heq).1
      rw [hlast] at hfailure
      cases hfailure
      exact ⟨rfl, rfl⟩
    · rw [List.concat_eq_append, ← List.cons_append, ← List.append_assoc] at hsplit
      have hmem : event ∈ front := by
        rw [(List.append_inj' hsplit rfl).1]
        simp
      rw [hnone event hmem] at hfailure
      cases hfailure

/-- A call that fails may be the only one. -/
theorem ends_failure (h : event.failure? = some fault) : Ends [event] (.error fault) :=
  @Ends.error [] event fault (by simp) h

/-- Calls that have come to an error have come to it by the last one. -/
theorem Ends.exists_last (h : Ends events (.error fault)) :
    ∃ before last, events = before ++ [last] ∧ last.failure? = some fault := by
  cases h with
  | error _ hlast => exact ⟨_, _, rfl, hlast⟩

/-! ## Deliveries -/

/-- For no bytes nothing is called. -/
theorem delivers_nothing (s : Sink) : Delivers s [] [] (.ok ()) s :=
  ⟨.nothing s, .ok (by simp), by simp, [], rfl, by simp⟩

/-- A write that fails ends the delivery of the bytes that it offered. -/
theorem delivers_failure {r : Except IoFault Nat} (hwrite : s.write bytes = (r, t))
    (hfailure : (Event.wrote bytes r).failure? = some fault) (hbytes : bytes ≠ []) :
    Delivers s bytes [.wrote bytes r] (.error fault) t := by
  have hnothing : (Event.wrote bytes r).taken = [] := by
    cases r with
    | ok n =>
      obtain rfl : n = 0 := by
        by_contra hn
        simp [Event.failure?, hn] at hfailure
      rfl
    | error fault => rfl
  refine ⟨.write hwrite (.nothing t), ends_failure hfailure, by simp, bytes, ?_, by simp [hbytes]⟩
  simp [takenIn, hnothing]

/-- A write that does not fail is followed by the delivery of what it has left. -/
theorem Delivers.after_write {r : Except IoFault Nat} (hwrite : s.write bytes = (r, t))
    (hfailure : (Event.wrote bytes r).failure? = none) {rest : Bytes}
    (hrest : (Event.wrote bytes r).taken ++ rest = bytes) (h : Delivers t rest events result u) :
    Delivers s bytes (.wrote bytes r :: events) result u := by
  have hfirst : Ends [.wrote bytes r] (.ok ()) := .ok (by simpa using hfailure)
  obtain ⟨left, hleft, hall⟩ := h.left
  refine ⟨.write hwrite h.does, hfirst.append h.ends, ?_, left, ?_, hall⟩
  · intro r' hmem
    rw [List.mem_cons] at hmem
    rcases hmem with heq | hmem
    · cases heq
    · exact h.writes r' hmem
  · calc takenIn (.wrote bytes r :: events) ++ left
        = (Event.wrote bytes r).taken ++ (takenIn events ++ left) := List.append_assoc ..
      _ = bytes := by rw [hleft, hrest]

/-- What was delivered is followed by what is delivered next. -/
theorem Delivers.append (h : Delivers s bytes events (.ok ()) t)
    (h' : Delivers t more events' result u) :
    Delivers s (bytes ++ more) (events ++ events') result u := by
  obtain ⟨rest, hrest, hall⟩ := h.left
  obtain ⟨left, hleft, hall'⟩ := h'.left
  refine ⟨h.does.trans h'.does, h.ends.append h'.ends, ?_, left, ?_, hall'⟩
  · intro r hmem
    rcases List.mem_append.mp hmem with hmem | hmem
    · exact h.writes r hmem
    · exact h'.writes r hmem
  · rw [takenIn_append, List.append_assoc, hleft, ← hrest, hall.mpr rfl, List.append_nil]

/-- Where some bytes could not be delivered, nothing behind them is. -/
theorem Delivers.cut_off (h : Delivers s bytes events (.error fault) t) (more : Bytes) :
    Delivers s (bytes ++ more) events (.error fault) t := by
  obtain ⟨rest, hrest, hall⟩ := h.left
  refine ⟨h.does, h.ends, h.writes, rest ++ more, by rw [← List.append_assoc, hrest], ?_⟩
  simp only [List.append_eq_nil_iff, hall, reduceCtorEq, false_and]

/-- Where all was delivered, the sink has taken all of it. -/
theorem Delivers.takenIn_eq (h : Delivers s bytes events (.ok ()) t) : takenIn events = bytes := by
  obtain ⟨rest, hrest, hall⟩ := h.left
  rw [hall.mpr rfl, List.append_nil] at hrest
  exact hrest

/-- What is handed over is a prefix of what was to be. -/
theorem Delivers.takenIn_prefix (h : Delivers s bytes events result t) :
    takenIn events <+: bytes := by
  obtain ⟨rest, hrest, -⟩ := h.left
  exact ⟨rest, hrest⟩

/-- All bytes are delivered, whatever the script says, or a call fails. -/
theorem writeScripted_delivers (flushFault : Option IoFault) (script : List Response)
    (bytes taken : Bytes) (calls : List Call) :
    let r := writeScripted flushFault script bytes taken calls
    ∃ events, Delivers ⟨script, flushFault, taken, calls⟩ bytes events r.1 r.2 := by
  -- A write that takes something or is interrupted goes on with the rest of the script; no other
  -- write does.
  fun_induction writeScripted flushFault script bytes taken calls with
  | case1 script taken calls => exact ⟨[], delivers_nothing _⟩
  | case2 bytes taken calls hbytes =>
    have hn : bytes.length ≠ 0 := by
      rw [ne_eq, List.length_eq_zero_iff]
      exact hbytes
    exact ⟨_, .after_write (r := .ok bytes.length) rfl (by simp [Event.failure?, hn])
      (by simp [Event.taken]) (delivers_nothing _)⟩
  | case3 script bytes taken calls hbytes =>
    have hnone : (Event.wrote bytes (.ok (min 0 bytes.length))).failure? = some nothingTaken := by
      simp [Event.failure?]
    refine ⟨_, delivers_failure ?_ hnone hbytes⟩
    simp only [write, List.take_zero, List.append_nil]
    rfl
  | case4 n script bytes taken calls hbytes _ hn ih =>
    obtain ⟨events, hdelivers⟩ := ih
    have hlength : bytes.length ≠ 0 := by
      rw [ne_eq, List.length_eq_zero_iff]
      exact hbytes
    refine ⟨_, hdelivers.after_write (r := .ok (min n bytes.length)) rfl ?_ ?_⟩
    · apply if_neg
      omega
    · show bytes.take (min n bytes.length) ++ bytes.drop n = bytes
      rw [← List.take_eq_take_min, List.take_append_drop]
  | case5 fault script bytes taken calls hbytes _ hinterrupted ih =>
    obtain ⟨events, hdelivers⟩ := ih
    exact ⟨_, hdelivers.after_write (r := .error fault) rfl (if_pos hinterrupted) rfl⟩
  | case6 fault script bytes taken calls hbytes _ hinterrupted =>
    exact ⟨_, delivers_failure (r := .error fault) rfl (if_neg hinterrupted) hbytes⟩

/-- Pieces are delivered as their concatenation. -/
theorem writePieces_delivers (s : Sink) (pieces : List Bytes) :
    ∃ events, Delivers s pieces.flatten events (s.writePieces pieces).1
      (s.writePieces pieces).2 := by
  induction pieces generalizing s with
  | nil => exact ⟨[], delivers_nothing s⟩
  | cons piece pieces ih =>
    obtain ⟨events, hfirst⟩ := writeScripted_delivers s.flushFault s.script piece s.taken s.calls
    rw [writePieces, List.flatten_cons]
    cases hwrite : s.writeAll piece with
    | mk result t =>
      change writeScripted s.flushFault s.script piece s.taken s.calls = (result, t) at hwrite
      simp only [hwrite] at hfirst
      cases result with
      | error fault => exact ⟨events, hfirst.cut_off pieces.flatten⟩
      | ok =>
        obtain ⟨events', hrest⟩ := ih t
        exact ⟨events ++ events', hfirst.append hrest⟩

/-! ## Frames -/

/-- The pieces of a frame are the payload in its envelope. -/
theorem flatten_pieces (envelope : Codec.Envelope) (payload : Bytes) :
    (envelope.prolog.toList ++ payload :: envelope.epilog.toList).flatten =
      envelope.wrap payload := by
  obtain ⟨prolog, epilog⟩ := envelope
  cases prolog <;> cases epilog <;> simp [Codec.Envelope.wrap]

/-- A frame is written piece by piece and flushed. -/
theorem writeFramed_frames (s : Sink) (envelope : Codec.Envelope) (payload : Bytes) :
    ∃ events, Frames s (envelope.wrap payload) events (s.writeFramed envelope payload).1
      (s.writeFramed envelope payload).2 := by
  obtain ⟨writes, hwrites⟩ :=
    s.writePieces_delivers (envelope.prolog.toList ++ payload :: envelope.epilog.toList)
  rw [flatten_pieces] at hwrites
  rw [writeFramed]
  cases hpieces : s.writePieces (envelope.prolog.toList ++ payload :: envelope.epilog.toList) with
  | mk result t =>
    rw [hpieces] at hwrites
    cases result with
    | error fault => exact ⟨writes, .cut hwrites⟩
    | ok => exact ⟨writes ++ [.flushed t.flush.1], .whole hwrites rfl⟩

/-- The calls for a frame are made one after the other. -/
theorem Frames.does (h : Frames s bytes events result t) : Does s events t := by
  cases h with
  | cut hwrites => exact hwrites.does
  | whole hwrites hflush => exact hwrites.does.trans (.flush hflush (.nothing t))

/-- The calls for a frame end with the first that fails, or with the flush. -/
theorem Frames.ends (h : Frames s bytes events result t) : Ends events result := by
  cases h with
  | cut hwrites => exact hwrites.ends
  | whole hwrites hflush =>
    apply hwrites.ends.append
    cases result with
    | ok => exact .ok (by simp [Event.failure?])
    | error fault => exact ends_failure rfl

/-- A flush takes nothing. -/
theorem takenIn_concat_flushed (events : List Event) (result : Except IoFault Unit) :
    takenIn (events ++ [.flushed result]) = takenIn events := by
  rw [takenIn_append]
  exact List.append_nil _

/-- The calls for a frame hand over a prefix of it. -/
theorem Frames.takenIn_prefix (h : Frames s bytes events result t) : takenIn events <+: bytes := by
  cases h with
  | cut hwrites => exact hwrites.takenIn_prefix
  | whole hwrites _ =>
    rw [takenIn_concat_flushed]
    exact hwrites.takenIn_prefix

/-- The calls for a frame succeed exactly when all of it was taken and the flush succeeded. -/
theorem Frames.ok_iff (h : Frames s bytes events result t) :
    result = .ok () ↔ takenIn events = bytes ∧ .flushed (.ok ()) ∈ events := by
  cases h with
  | cut hwrites =>
    constructor
    · intro hok
      cases hok
    · rintro ⟨-, hmem⟩
      exact absurd hmem (hwrites.writes _)
  | whole hwrites _ =>
    rw [takenIn_concat_flushed, hwrites.takenIn_eq, List.mem_append]
    constructor
    · rintro rfl
      exact ⟨rfl, .inr (List.mem_singleton_self _)⟩
    · rintro ⟨-, hmem | hmem⟩
      · exact absurd hmem (hwrites.writes _)
      · exact (Event.flushed.inj (List.mem_singleton.mp hmem)).symm

/-- A flush of a frame is the last call for it, the only flush, and comes when all is taken. -/
theorem Frames.flushed_last (h : Frames s bytes events result t) {before after : List Event}
    {r : Except IoFault Unit} (hsplit : events = before ++ .flushed r :: after) :
    takenIn before = bytes ∧ (∀ r', .flushed r' ∉ before) ∧ after = [] := by
  cases h with
  | cut hwrites => exact absurd (by simp [hsplit]) (hwrites.writes r)
  | whole hwrites _ =>
    rcases List.eq_nil_or_concat after with rfl | ⟨after', last, rfl⟩
    · obtain ⟨rfl, -⟩ := List.append_inj' hsplit rfl
      exact ⟨hwrites.takenIn_eq, hwrites.writes, rfl⟩
    · rw [List.concat_eq_append, ← List.cons_append, ← List.append_assoc] at hsplit
      obtain ⟨rfl, -⟩ := List.append_inj' hsplit rfl
      exact absurd (by simp) (hwrites.writes r)

/-- A codec's envelope makes a payload the frame that the codec encodes. -/
theorem encode_of_envelope {codec : Codec} {envelope : Codec.Envelope} {payload : Bytes}
    (h : codec.envelope payload.length = .ok envelope) :
    codec.encode payload = .ok (envelope.wrap payload) := by
  rw [Codec.encode, h]
  rfl

/-- A frame is written to a sink by calls that hand over a prefix of the payload in its envelope,
in order. The result is a success exactly when all of it was taken and a flush succeeded; a flush is
called for at most once and only when all was taken; and a call that fails is the last one, and its
error the result. With the envelope of a codec, all of it is the frame that the codec encodes. -/
theorem writeFramed_delivers (s : Sink) (envelope : Codec.Envelope) (payload : Bytes) :
    ∃ events, Does s events (s.writeFramed envelope payload).2 ∧
      (s.writeFramed envelope payload).2.calls = (events.map Event.call).reverse ++ s.calls ∧
      (s.writeFramed envelope payload).2.taken = s.taken ++ takenIn events ∧
      takenIn events <+: envelope.wrap payload ∧
      ((s.writeFramed envelope payload).1 = .ok () ↔
        takenIn events = envelope.wrap payload ∧ .flushed (.ok ()) ∈ events) ∧
      (∀ before r after, events = before ++ .flushed r :: after →
        takenIn before = envelope.wrap payload ∧ (∀ r', .flushed r' ∉ before) ∧ after = []) ∧
      (∀ before event after fault, events = before ++ event :: after →
        event.failure? = some fault →
        after = [] ∧ (s.writeFramed envelope payload).1 = .error fault) ∧
      (∀ fault, (s.writeFramed envelope payload).1 = .error fault →
        ∃ before last, events = before ++ [last] ∧ last.failure? = some fault) ∧
      ∀ codec : Codec, codec.envelope payload.length = .ok envelope →
        codec.encode payload = .ok (envelope.wrap payload) ∧
        ((s.writeFramed envelope payload).1 = .ok () →
          codec.encode payload = .ok (takenIn events)) := by
  obtain ⟨events, h⟩ := s.writeFramed_frames envelope payload
  refine ⟨events, h.does, h.does.calls, h.does.taken, h.takenIn_prefix, h.ok_iff, ?_, ?_, ?_, ?_⟩
  · intro before r after hsplit
    exact h.flushed_last hsplit
  · intro before event after fault hsplit hfailure
    exact h.ends.last hsplit hfailure
  · intro fault hfault
    have hends := h.ends
    rw [hfault] at hends
    exact hends.exists_last
  · intro codec henvelope
    have hencode := encode_of_envelope henvelope
    refine ⟨hencode, fun hok ↦ ?_⟩
    rw [(h.ok_iff.mp hok).1]
    exact hencode

end

end Sidecar.Sink
