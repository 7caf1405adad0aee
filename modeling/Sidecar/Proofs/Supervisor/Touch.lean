import Sidecar.Proofs.Supervisor.Run

/-!
# What a step does to a child

`Touch` lists what a step can do to a child as far as its streams and those who write to it are
concerned. Nothing else happens to a child, as is shown in `touch_of_step`, and it is there from
when it is launched (`launched_of_step`). What is said of one child in a run is proved by cases over
touches.
-/

namespace Sidecar.Supervisor

/-- The bytes that a child writes to a stream under a label. -/
def Label.brings (label : Label) (g : Generation) (stream : Stream) : Bytes :=
  match label with
  | .emit g' stream' bytes => if g' = g ∧ stream' = stream then bytes else []
  | _ => []

/-- Whether a child's stream ends under a label. -/
def Label.ends (label : Label) (g : Generation) (stream : Stream) : Bool :=
  label = .endStream g stream

/-- The stream from which a label takes a token, if there is one. -/
def reads? (s : Supervisor) : Label → Option (Generation × Stream)
  | .receive id stream =>
    match s.callers.get? id with
    | some (.awaiting g) => some (g, stream)
    | some (.collecting g _) => some (g, stream)
    | _ => none
  | .discard stream =>
    match s.warden with
    | .draining g => some (g, stream)
    | _ => none
  | _ => none

/-- The token that a label takes from a child's stream. -/
def removes (s : Supervisor) (label : Label) (g : Generation) (stream : Stream) : List Bytes :=
  if s.reads? label = some (g, stream) then
    match s.children.get? g with
    | some c => (c.outlet stream).queue.head?.toList
    | none => []
  else []

/-- A label under which nothing comes into a child's streams and nothing is taken from them. -/
structure Hushed (s : Supervisor) (label : Label) (g : Generation) : Prop where
  brings : ∀ stream, label.brings g stream = []
  ends : ∀ stream, label.ends g stream = false
  removes : ∀ stream, s.removes label g stream = []

/-- Two children with the same streams and the same dealings with those who write to them. -/
structure Alike (c c' : Child) : Prop where
  outlet : ∀ stream, c'.outlet stream = c.outlet stream
  requests : c'.requests = c.requests
  writer : c'.writer = c.writer

/-- What a step can do to a child. -/
inductive Touch (s : Supervisor) (g : Generation) (c : Child) : Label → Child → Prop where
  /-- Nothing to its streams, and nothing to those who write to it. -/
  | aside {label : Label} {c' : Child} (hhushed : Hushed s label g) (halike : Alike c c') :
      Touch s g c label c'
  /-- A caller locks its input. -/
  | entered {id : CallerId} {frame : Bytes} (hpost : s.callers.get? id = some (.entering g frame))
      (hwriter : c.writer = none) : Touch s g c (.proceed id) { c with writer := some id }
  /-- A caller has written a frame. -/
  | written {id : CallerId} {frame : Bytes} (hpost : s.callers.get? id = some (.writing g frame)) :
      Touch s g c (.written id) { c with writer := none, requests := frame :: c.requests }
  /-- A caller could not write its frame. -/
  | unwritten {id : CallerId} {frame : Bytes} {cause : IoFault}
      (hpost : s.callers.get? id = some (.writing g frame)) :
      Touch s g c (.unwritten id cause) { c with writer := none }
  /-- The oldest token of a stream is taken. -/
  | taken {label : Label} {stream : Stream} {token : Bytes} {rest : List Bytes}
      (hreads : s.reads? label = some (g, stream))
      (hqueue : (c.outlet stream).queue = token :: rest) :
      Touch s g c label (c.setOutlet stream { c.outlet stream with queue := rest })
  /-- It writes to a stream. -/
  | said {stream : Stream} {bytes : Bytes} (hphase : (c.outlet stream).phase = .decoding) :
      Touch s g c (.emit g stream bytes) (c.setOutlet stream ((c.outlet stream).feed bytes))
  /-- One of its streams ends. -/
  | ended {stream : Stream} (hphase : (c.outlet stream).phase = .decoding) :
      Touch s g c (.endStream g stream) (c.setOutlet stream (c.outlet stream).close)
  /-- The decoder of a stream that is not decoded any more goes on. -/
  | advanced {label : Label} (stream : Stream) (phase : Outlet.Phase) {c' : Child}
      (hhushed : Hushed s label g) (hbefore : (c.outlet stream).phase ≠ .decoding)
      (hafter : phase ≠ .decoding)
      (halike : Alike (c.setOutlet stream { c.outlet stream with phase }) c') :
      Touch s g c label c'

/-- A step that leaves the streams of the children alone, and those who write to them. -/
def Undisturbed (s t : Supervisor) : Prop :=
  ∀ g c, g ≤ s.generation → s.children.get? g = some c →
    ∃ c', t.children.get? g = some c' ∧ Alike c c'

section

variable {s t : Supervisor} {g : Generation} {c : Child} {label : Label} {id : CallerId}

/-! ## Streams -/

/-- An outlet that was set is there, and the other one is as it was. -/
theorem outlet_setOutlet (c : Child) (stream stream' : Stream) (o : Outlet) :
    (c.setOutlet stream o).outlet stream' = if stream' = stream then o else c.outlet stream' := by
  cases stream <;> cases stream' <;> rfl

@[simp] theorem requests_setOutlet (c : Child) (stream : Stream) (o : Outlet) :
    (c.setOutlet stream o).requests = c.requests := by
  cases stream <;> rfl

@[simp] theorem writer_setOutlet (c : Child) (stream : Stream) (o : Outlet) :
    (c.setOutlet stream o).writer = c.writer := by
  cases stream <;> rfl

/-- Whether a label is about what a stream brings. -/
def Label.isFlow : Label → Bool
  | .emit _ _ _ => true
  | .endStream _ _ => true
  | .receive _ _ => true
  | .discard _ => true
  | _ => false

/-- A label that reads no stream takes nothing. -/
theorem removes_of_not_reads {stream : Stream} (hreads : s.reads? label = none) :
    s.removes label g stream = [] := by
  simp [removes, hreads]

/-- A label that is not about what a stream brings hushes every child. -/
theorem hushed_of_not_isFlow (h : label.isFlow = false) : Hushed s label g := by
  cases label <;> first | cases h; done | exact ⟨fun _ ↦ rfl, fun _ ↦ by simp [Label.ends],
    fun _ ↦ removes_of_not_reads rfl⟩

/-- A label of another child's streams hushes a child. -/
theorem hushed_of_emit_ne {g' : Generation} {stream : Stream} {bytes : Bytes} (hne : g' ≠ g) :
    Hushed s (.emit g' stream bytes) g :=
  ⟨fun _ ↦ if_neg fun h ↦ hne h.1, fun _ ↦ by simp [Label.ends], fun _ ↦ removes_of_not_reads rfl⟩

/-- The end of another child's stream hushes a child. -/
theorem hushed_of_endStream_ne {g' : Generation} {stream : Stream} (hne : g' ≠ g) :
    Hushed s (.endStream g' stream) g :=
  ⟨fun _ ↦ rfl, fun _ ↦ by simp [Label.ends, hne], fun _ ↦ removes_of_not_reads rfl⟩

/-- A label that reads brings nothing, and ends no stream. -/
theorem brings_of_reads {stream : Stream} (hreads : s.reads? label = some (g, stream))
    (g' : Generation) (stream' : Stream) :
    label.brings g' stream' = [] ∧ label.ends g' stream' = false := by
  cases label <;> first | cases hreads | exact ⟨rfl, by simp [Label.ends]⟩

/-- A label that reads from a stream takes its oldest token and nothing from the other stream. -/
theorem removes_of_reads {stream : Stream} {token : Bytes} {rest : List Bytes}
    (hreads : s.reads? label = some (g, stream)) (hchild : s.children.get? g = some c)
    (hqueue : (c.outlet stream).queue = token :: rest) (stream' : Stream) :
    s.removes label g stream' = if stream' = stream then [token] else [] := by
  unfold removes
  by_cases hstream : stream' = stream
  · rw [hstream, if_pos hreads, if_pos rfl]
    simp only [hchild, hqueue]
    rfl
  · rw [if_neg hstream, if_neg]
    rw [hreads]
    simpa using Ne.symm hstream

/-- A label that would take a token from no stream, from an empty one or from another child's
hushes a child. -/
theorem hushed_of_reads (hlabel : (∃ id stream, label = .receive id stream) ∨
      ∃ stream, label = .discard stream)
    (hreads : ∀ stream, s.reads? label = some (g, stream) →
      ∀ c, s.children.get? g = some c → (c.outlet stream).queue = []) : Hushed s label g := by
  refine ⟨fun _ ↦ ?_, fun _ ↦ ?_, fun stream ↦ ?_⟩
  · obtain ⟨_, _, rfl⟩ | ⟨_, rfl⟩ := hlabel <;> rfl
  · obtain ⟨_, _, rfl⟩ | ⟨_, rfl⟩ := hlabel <;> simp [Label.ends]
  · unfold removes
    split
    · next hread =>
      cases hchild : s.children.get? g with
      | none => rfl
      | some c =>
        simp only [hreads stream hread c hchild]
        rfl
    · rfl

/-! ## Steps that disturb no stream -/

private theorem alike_refl (c : Child) : Alike c c := ⟨fun _ ↦ rfl, rfl, rfl⟩

/-- Children that are left as they are are not disturbed. -/
theorem undisturbed_of_eq (h : t.children = s.children) : Undisturbed s t :=
  fun _ c _ hchild ↦ ⟨c, by rw [h, hchild], alike_refl c⟩

/-- A child whose streams are left alone is not disturbed, and neither are the others. -/
theorem undisturbed_of_modify {f : Child → Child} {g : Generation} (hf : ∀ c, Alike c (f c))
    (h : t.children = s.children.modify g f) : Undisturbed s t := by
  intro g' c _ hchild
  by_cases hg : g = g'
  · exact ⟨f c, by rw [h, Table.get?_modify, if_pos hg, hg, hchild]; rfl, hf c⟩
  · exact ⟨c, by rw [h, Table.get?_modify, if_neg hg, hchild], alike_refl c⟩

private theorem alike_status (c : Child) (status : Status) : Alike c { c with status } :=
  ⟨fun stream ↦ by cases stream <;> rfl, rfl, rfl⟩

private theorem alike_exitNotice (c : Child) (exitNotice : Bool) :
    Alike c { c with exitNotice } :=
  ⟨fun stream ↦ by cases stream <;> rfl, rfl, rfl⟩

private theorem undisturbed_reap {g : Generation} (h : t.children = (s.reap g).children) :
    Undisturbed s t :=
  undisturbed_of_modify (alike_status · .reaped) h

private theorem undisturbed_of_abandon {start : Start} {failure : Failure} {u : Supervisor}
    (h : s.abandon start = some (failure, u)) (ht : t.children = u.children) :
    Undisturbed s t := by
  cases start with
  | discarding =>
    cases h
    exact undisturbed_of_eq ht
  | scrapping g cause =>
    cases h
    exact undisturbed_reap ht
  | _ => cases h

private theorem children_placeStart (start : Start) (holder : Holder) :
    (s.placeStart start holder).children = s.children := by
  cases holder <;> rfl

private theorem children_endStart (result : Except Failure Unit) (holder : Holder) :
    (s.endStart result holder).children = s.children := by
  cases holder with
  | caller id => exact s.children_finishStart id result
  | warden => exact s.children_wardenStarted result

/-- A caller that goes on without a child's input disturbs no stream. -/
theorem undisturbed_of_proceedCaller {c : Caller} (hc : ∀ g frame, c ≠ .entering g frame)
    (h : s.proceedCaller id c = some t) : Undisturbed s t := by
  cases c with
  | starting start =>
    unfold proceedCaller at h
    split at h
    · split at h
      · cases h
      · split at h
        · cases h
          exact undisturbed_of_eq (children_finishStart ..)
        · next u hbegin =>
          cases h
          obtain rfl := eq_of_beginStart hbegin
          exact undisturbed_of_eq rfl
    · obtain ⟨⟨failure, u⟩, habandon, rfl⟩ := Option.map_eq_some_iff.mp h
      exact undisturbed_of_abandon habandon rfl
    all_goals contradiction
  | reaping g =>
    cases h
    exact undisturbed_reap rfl
  | entering g frame => exact absurd rfl (hc g frame)
  | signalling g =>
    simp only [proceedCaller] at h
    split at h
    · cases h
    · split at h
      · cases h
        refine undisturbed_of_modify (fun c ↦ ?_) rfl
        split
        · exact alike_status c .exited
        · exact alike_refl c
      · cases h
        exact undisturbed_of_eq rfl
  | _ =>
    simp only [proceedCaller] at h
    repeat' split at h
    all_goals first
      | cases h; done
      | cases h; exact undisturbed_of_eq rfl

/-- The warden, when it goes on, disturbs no stream. -/
theorem undisturbed_of_proceedWarden (h : s.proceedWarden = some t) : Undisturbed s t := by
  unfold proceedWarden at h
  split at h
  case h_6 =>
    split at h
    · cases h
    · split at h
      · cases h
        exact undisturbed_of_eq (children_wardenStarted ..)
      · next u hbegin =>
        cases h
        obtain rfl := eq_of_beginStart hbegin
        exact undisturbed_of_eq rfl
  case h_7 =>
    obtain ⟨⟨failure, u⟩, habandon, rfl⟩ := Option.map_eq_some_iff.mp h
    exact undisturbed_of_abandon habandon (children_wardenStarted ..)
  case h_10 =>
    -- The input of the last child is closed on the supervisor's side.
    cases h
    refine undisturbed_of_modify (fun c ↦ ?_) rfl
    split
    · exact alike_refl c
    · exact ⟨fun stream ↦ by cases stream <;> rfl, rfl, rfl⟩
  all_goals
    repeat' split at h
    all_goals first
      | cases h; done
      | cases h; exact undisturbed_of_eq rfl
      | cases h; exact undisturbed_reap rfl

/-- A child that is launched is not one of those that were there. -/
theorem undisturbed_of_stepLaunch {holder : Holder} {outcome : Launch}
    (h : s.stepLaunch holder outcome = some t) : Undisturbed s t := by
  unfold stepLaunch at h
  split at h
  · cases outcome with
    | refused cause =>
      cases h
      exact undisturbed_of_eq (children_endStart _ holder)
    | uncaptured =>
      cases h
      exact undisturbed_of_eq (children_placeStart _ holder)
    | launched =>
      cases h
      intro g c hle hchild
      refine ⟨c, ?_, alike_refl c⟩
      rw [children_placeStart]
      exact (Table.get?_set_of_ne _ _ (Nat.ne_of_gt (Nat.lt_succ_of_le hle))).trans hchild
  · cases h

/-- Decoders that are spawned find their streams as they are. -/
theorem undisturbed_of_stepEquip {holder : Holder} {outcome : Equip}
    (h : s.stepEquip holder outcome = some t) : Undisturbed s t := by
  unfold stepEquip at h
  split at h
  · cases outcome <;> cases h
    · exact undisturbed_of_eq (children_endStart _ holder)
    · exact undisturbed_of_eq (children_placeStart _ holder)
  · cases h

/-! ## Steps that disturb one stream -/

private theorem touch_of_undisturbed (hundisturbed : Undisturbed s t)
    (hhushed : Hushed s label g) (hle : g ≤ s.generation) (hchild : s.children.get? g = some c) :
    ∃ c', t.children.get? g = some c' ∧ Touch s g c label c' := by
  obtain ⟨c', hchild', halike⟩ := hundisturbed g c hle hchild
  exact ⟨c', hchild', .aside hhushed halike⟩

private theorem touch_of_modify {f : Child → Child} {g' : Generation}
    (hchildren : t.children = s.children.modify g' f) (hchild : s.children.get? g = some c)
    (hown : g' = g → Touch s g c label (f c)) (hother : g' ≠ g → Hushed s label g) :
    ∃ c', t.children.get? g = some c' ∧ Touch s g c label c' := by
  rw [hchildren, Table.get?_modify]
  by_cases hg : g' = g
  · exact ⟨f c, by rw [if_pos hg, hg, hchild]; rfl, hown hg⟩
  · exact ⟨c, by rw [if_neg hg, hchild], .aside (hother hg) (alike_refl c)⟩

private theorem touch_of_take {stream : Stream} {token : Bytes} {o : Outlet}
    {g' : Generation} {c' : Child} (hreads : s.reads? label = some (g', stream))
    (hlabel : (∃ id stream, label = .receive id stream) ∨ ∃ stream, label = .discard stream)
    (hchild' : s.children.get? g' = some c') (htake : (c'.outlet stream).take? = some (token, o))
    (hchildren : t.children = s.children.modify g' (·.setOutlet stream o))
    (hchild : s.children.get? g = some c) :
    ∃ c', t.children.get? g = some c' ∧ Touch s g c label c' := by
  refine touch_of_modify hchildren hchild (fun hg ↦ ?_) (fun hne ↦ ?_)
  · subst hg
    rw [hchild] at hchild'
    cases hchild'
    unfold Outlet.take? at htake
    split at htake
    · cases htake
    · next hqueue =>
      cases htake
      exact .taken hreads hqueue
  · refine hushed_of_reads hlabel fun stream' hreads' ↦ ?_
    rw [hreads] at hreads'
    cases hreads'
    exact absurd rfl hne

private theorem touch_of_receive {stream : Stream} {post : Caller}
    (hpost : s.callers.get? id = some post) (h : s.receiveToken id stream post = some t)
    (hle : g ≤ s.generation) (hchild : s.children.get? g = some c) :
    ∃ c', t.children.get? g = some c' ∧ Touch s g c (.receive id stream) c' := by
  have hlabel : (∃ id' stream', Label.receive id stream = .receive id' stream') ∨
      ∃ stream', Label.receive id stream = .discard stream' := .inl ⟨id, stream, rfl⟩
  -- Nothing is taken where the stream has nothing.
  have hnothing : ∀ {g' : Generation} {c' : Child},
      s.reads? (.receive id stream) = some (g', stream) → s.children.get? g' = some c' →
      (c'.outlet stream).take? = none → t.children = s.children →
      ∃ c'', t.children.get? g = some c'' ∧ Touch s g c (.receive id stream) c'' := by
    intro g' c' hreads hchild' htake hchildren
    refine touch_of_undisturbed (undisturbed_of_eq hchildren)
      (hushed_of_reads hlabel fun stream' hreads' c'' hchild'' ↦ ?_) hle hchild
    rw [hreads] at hreads'
    cases hreads'
    rw [hchild'] at hchild''
    cases hchild''
    unfold Outlet.take? at htake
    split at htake
    · next hqueue => exact hqueue
    · cases htake
  cases post with
  | awaiting g' =>
    have hreads : s.reads? (.receive id stream) = some (g', stream) := by
      simp only [reads?, hpost]
    simp only [receiveToken] at h
    split at h
    · cases h
    · next c' hchild' =>
      split at h
      · next token o htake =>
        split at h <;> cases h <;> exact touch_of_take hreads hlabel hchild' htake rfl hchild
      · next htake =>
        split at h
        · cases h
          exact hnothing hreads hchild' htake rfl
        · cases h
  | collecting g' lines =>
    have hreads : s.reads? (.receive id stream) = some (g', stream) := by
      simp only [reads?, hpost]
    simp only [receiveToken] at h
    split at h
    · next c' hchild' =>
      split at h
      · next token o htake =>
        cases h
        exact touch_of_take hreads hlabel hchild' htake rfl hchild
      · next htake =>
        split at h
        · cases h
          exact hnothing hreads hchild' htake rfl
        · cases h
    · cases h
  | _ => cases h

private theorem touch_of_discard {stream : Stream} (h : s.discardToken stream = some t)
    (hchild : s.children.get? g = some c) :
    ∃ c', t.children.get? g = some c' ∧ Touch s g c (.discard stream) c' := by
  unfold discardToken at h
  split at h
  · next g' hwarden =>
    split at h
    · next c' hchild' =>
      obtain ⟨⟨token, o⟩, htake, rfl⟩ := Option.map_eq_some_iff.mp h
      exact touch_of_take (by simp only [reads?, hwarden]) (.inr ⟨stream, rfl⟩) hchild' htake rfl
        hchild
    · cases h
  · cases h

private theorem touch_of_written (hpost : ∃ post, s.callers.get? id = some post ∧
      s.endWriting id (.ok ()) post = some t) (hchild : s.children.get? g = some c) :
    ∃ c', t.children.get? g = some c' ∧ Touch s g c (.written id) c' := by
  obtain ⟨post, hpost, h⟩ := hpost
  cases post with
  | writing g' frame =>
    cases h
    refine touch_of_modify rfl hchild (fun hg ↦ ?_) fun _ ↦ hushed_of_not_isFlow rfl
    exact .written (hg ▸ hpost)
  | _ => cases h

private theorem touch_of_unwritten {cause : IoFault} (hpost : ∃ post,
      s.callers.get? id = some post ∧ s.endWriting id (.error cause) post = some t)
    (hchild : s.children.get? g = some c) :
    ∃ c', t.children.get? g = some c' ∧ Touch s g c (.unwritten id cause) c' := by
  obtain ⟨post, hpost, h⟩ := hpost
  cases post with
  | writing g' frame =>
    cases h
    refine touch_of_modify rfl hchild (fun hg ↦ ?_) fun _ ↦ hushed_of_not_isFlow rfl
    exact .unwritten (hg ▸ hpost)
  | _ => cases h

private theorem touch_of_proceed (hpost : ∃ post, s.callers.get? id = some post ∧
      s.proceedCaller id post = some t) (hle : g ≤ s.generation)
    (hchild : s.children.get? g = some c) :
    ∃ c', t.children.get? g = some c' ∧ Touch s g c (.proceed id) c' := by
  obtain ⟨post, hpost, h⟩ := hpost
  by_cases hentering : ∃ g' frame, post = .entering g' frame
  · obtain ⟨g', frame, rfl⟩ := hentering
    simp only [proceedCaller] at h
    split at h
    · cases h
    · next c' hchild' =>
      split at h
      · cases h
      · next hwriter =>
        split at h
        · cases h
          refine touch_of_modify rfl hchild (fun hg ↦ ?_) fun _ ↦ hushed_of_not_isFlow rfl
          subst hg
          rw [hchild] at hchild'
          cases hchild'
          exact .entered hpost (by simpa using hwriter)
        · cases h
          exact touch_of_undisturbed (undisturbed_of_eq rfl) (hushed_of_not_isFlow rfl) hle hchild
  · refine touch_of_undisturbed (undisturbed_of_proceedCaller (fun g' frame heq ↦ ?_) h)
      (hushed_of_not_isFlow rfl) hle hchild
    exact hentering ⟨g', frame, heq⟩

private theorem touch_of_stepReport {g' : Generation} {stream : Stream}
    (h : s.stepReport g' stream = some t) (hchild : s.children.get? g = some c) :
    ∃ c', t.children.get? g = some c' ∧ Touch s g c (.report g' stream) c' := by
  simp only [stepReport] at h
  split at h
  · cases h
  · next c' hchild' =>
    split at h
    · next hphase =>
      cases h
      refine touch_of_modify rfl hchild (fun hg ↦ ?_) fun _ ↦ hushed_of_not_isFlow rfl
      subst hg
      rw [hchild] at hchild'
      cases hchild'
      refine .advanced stream .reported (hushed_of_not_isFlow rfl) (by simp [hphase]) (by simp)
        ⟨fun stream' ↦ ?_, rfl, rfl⟩
      · cases stream' <;> rfl
    · cases h

private theorem touch_of_stepOutlet {g' : Generation} {stream : Stream}
    {f : Outlet → Option Outlet} (h : s.stepOutlet g' stream f = some t)
    (hchild : s.children.get? g = some c)
    (hown : g' = g → ∀ o, f (c.outlet stream) = some o → Touch s g c label (c.setOutlet stream o))
    (hother : g' ≠ g → Hushed s label g) :
    ∃ c', t.children.get? g = some c' ∧ Touch s g c label c' := by
  unfold stepOutlet at h
  split at h
  · cases h
  · next c' hchild' =>
    obtain ⟨o, hf, rfl⟩ := Option.map_eq_some_iff.mp h
    refine touch_of_modify rfl hchild (fun hg ↦ hown hg o ?_) hother
    subst hg
    rw [hchild] at hchild'
    cases hchild'
    exact hf

/-- A step touches every child that is there. -/
theorem touch_of_step (h : s.step label = some t) (hle : g ≤ s.generation)
    (hchild : s.children.get? g = some c) :
    ∃ c', t.children.get? g = some c' ∧ Touch s g c label c' := by
  cases label with
  | proceed id => exact touch_of_proceed (Option.bind_eq_some_iff.mp h) hle hchild
  | launch holder outcome =>
    exact touch_of_undisturbed (undisturbed_of_stepLaunch h) (hushed_of_not_isFlow rfl) hle hchild
  | equip holder outcome =>
    exact touch_of_undisturbed (undisturbed_of_stepEquip h) (hushed_of_not_isFlow rfl) hle hchild
  | written id => exact touch_of_written (Option.bind_eq_some_iff.mp h) hchild
  | unwritten id cause => exact touch_of_unwritten (Option.bind_eq_some_iff.mp h) hchild
  | receive id stream =>
    obtain ⟨post, hpost, hreceive⟩ := Option.bind_eq_some_iff.mp h
    exact touch_of_receive hpost hreceive hle hchild
  | warden =>
    exact touch_of_undisturbed (undisturbed_of_proceedWarden h) (hushed_of_not_isFlow rfl) hle
      hchild
  | discard stream => exact touch_of_discard h hchild
  | emit g' stream bytes =>
    simp only [step] at h
    refine touch_of_stepOutlet h hchild (fun hg o hf ↦ ?_) fun hne ↦ hushed_of_emit_ne hne
    subst hg
    split at hf
    · next hphase =>
      cases hf
      exact .said hphase
    · cases hf
  | endStream g' stream =>
    simp only [step] at h
    refine touch_of_stepOutlet h hchild (fun hg o hf ↦ ?_) fun hne ↦ hushed_of_endStream_ne hne
    subst hg
    split at hf
    · next hphase =>
      cases hf
      exact .ended hphase
    · cases hf
  | disconnect g' stream =>
    simp only [step] at h
    refine touch_of_stepOutlet h hchild (fun hg o hf ↦ ?_) fun _ ↦ hushed_of_not_isFlow rfl
    split at hf
    · next hphase =>
      cases hf
      exact .advanced stream .disconnected (hushed_of_not_isFlow rfl)
        (by simp [hphase]) (by simp) (alike_refl _)
    · cases hf
  | report g' stream => exact touch_of_stepReport h hchild
  | exitNoticed =>
    simp only [step, noticeExit] at h
    repeat' split at h
    all_goals first
      | cases h; done
      | cases h
        exact touch_of_undisturbed (undisturbed_of_modify (alike_exitNotice · false) rfl)
          (hushed_of_not_isFlow rfl) hle hchild
  | exit g' =>
    simp only [step] at h
    repeat' split at h
    all_goals first
      | cases h; done
      | cases h
        exact touch_of_undisturbed (undisturbed_of_modify (alike_status · .exited) rfl)
          (hushed_of_not_isFlow rfl) hle hchild
  | _ =>
    simp only [step, noticeClose] at h
    repeat' split at h
    all_goals first
      | cases h; done
      | cases h
        exact touch_of_undisturbed (undisturbed_of_eq rfl) (hushed_of_not_isFlow rfl) hle hchild

/-! ## Children that are not there -/

private theorem get?_of_modify {f : Child → Child} {g' : Generation}
    (habsent : s.children.get? g = none) : (s.children.modify g' f).get? g = none := by
  rw [Table.get?_modify]
  split
  · next heq => rw [heq, habsent]; rfl
  · exact habsent

private theorem get?_of_standing {children : Table Generation Child}
    (hstanding : ∀ g, standingAmong? children g = s.standing? g)
    (habsent : s.children.get? g = none) : children.get? g = none := by
  have hnone := hstanding g
  rw [standing?, standingAmong?, standingAmong?, habsent] at hnone
  exact Option.map_eq_none_iff.mp hnone

/-- A child that was not there is not there after a step, unless the step launches it. -/
theorem launched_of_step (h : s.step label = some t) (habsent : s.children.get? g = none) :
    t.children.get? g = none ∨ ∃ holder, label = .launch holder .launched ∧
      t.children.get? g = some (.fresh s.config (holder = .warden)) := by
  cases move_of_step h with
  | talk _ hstanding => exact .inl (get?_of_standing hstanding habsent)
  | patrol _ hstanding _ _ => exact .inl (get?_of_standing hstanding habsent)
  | @launched holder =>
    rw [Table.get?_set]
    split
    · exact .inr ⟨holder, rfl, rfl⟩
    · exact .inl habsent
  | scrapped _ _ => exact .inl (get?_of_modify habsent)
  | reaped _ _ => exact .inl (get?_of_modify habsent)
  | _ => exact .inl habsent

/-- Nothing comes into the streams of a child that is not there, and nothing is taken. -/
theorem hushed_of_absent (h : s.step label = some t) (habsent : s.children.get? g = none) :
    Hushed s label g := by
  have hremoves : ∀ stream, s.removes label g stream = [] := by
    intro stream
    unfold removes
    split
    · rw [habsent]
    · rfl
  have hnone : ∀ {stream f}, s.stepOutlet g stream f = none := by
    intro stream f
    rw [stepOutlet, habsent]
  refine ⟨fun stream ↦ ?_, fun stream ↦ ?_, hremoves⟩
  · cases label with
    | emit g' stream' bytes =>
      refine if_neg fun heq ↦ ?_
      simp only [step] at h
      rw [heq.1, hnone] at h
      cases h
    | _ => rfl
  · refine decide_eq_false fun heq ↦ ?_
    subst heq
    simp only [step] at h
    rw [hnone] at h
    cases h

/-- No step changes the configuration. -/
theorem config_of_step (h : s.step label = some t) : t.config = s.config := by
  cases move_of_step h <;> rfl

end

end Sidecar.Supervisor
