import Sidecar.Proofs.Stream.Outflow
import Sidecar.Proofs.Supervisor.Custody
import Sidecar.Proofs.Supervisor.Touch

/-!
# What has come out of a child

A run tells what a child has written to its streams and which tokens were taken from them. The state
does not keep this, and no step looks at it. In every run the tokens that were taken from a stream
and those that wait there are, one behind the other, the tokens of what the child wrote to it
(`taken_append_queue`). So no token is lost, made up, swapped or taken from another child.
-/

namespace Sidecar

/-- The codec by which a stream of a child is read. -/
def Config.codecOf (config : Config) : Supervisor.Stream → Codec
  | .out => config.codecRecv
  | .err => .lines

/-- The longest frame that is read. -/
def Config.limit (config : Config) : Nat := max config.maxBuffer.toNat 1

namespace Supervisor

/-- The bytes that a child writes to a stream in a run. -/
def written (labels : List Label) (g : Generation) (stream : Stream) : Bytes :=
  labels.flatMap (·.brings g stream)

/-- Whether a child's stream ends in a run. -/
def hasEnded (labels : List Label) (g : Generation) (stream : Stream) : Bool :=
  labels.any (·.ends g stream)

/-- The tokens that are taken from a child's stream in a run, by whomever. -/
def taken (s : Supervisor) : List Label → Generation → Stream → List Bytes
  | [], _, _ => []
  | label :: labels, g, stream =>
    s.removes label g stream ++
      match s.step label with
      | some t => t.taken labels g stream
      | none => []

/-- The tokens of what a child wrote to a stream in a run. -/
def tokens (s : Supervisor) (labels : List Label) (g : Generation) (stream : Stream) :
    List Bytes :=
  (s.config.codecOf stream).tokens s.config.limit (hasEnded labels g stream)
    (written labels g stream)

/-- What a run has left of a child: its streams hold the tokens that were not taken, and a child that
is not there has no history. -/
structure Recorded (s : Supervisor) (labels : List Label) (t : Supervisor) (g : Generation) :
    Prop where
  absent : t.children.get? g = none → ∀ stream, written labels g stream = [] ∧
    hasEnded labels g stream = false ∧ s.taken labels g stream = []
  present : ∀ c, t.children.get? g = some c → ∀ stream, (c.outlet stream).Cut
    (s.config.codecOf stream) s.config.limit (hasEnded labels g stream) (written labels g stream)
    (s.taken labels g stream)

section

variable {s t u : Supervisor} {g : Generation} {c c' : Child} {label : Label} {labels : List Label}

theorem written_concat (labels : List Label) (label : Label) (g : Generation) (stream : Stream) :
    written (labels ++ [label]) g stream = written labels g stream ++ label.brings g stream := by
  simp [written]

theorem hasEnded_concat (labels : List Label) (label : Label) (g : Generation) (stream : Stream) :
    hasEnded (labels ++ [label]) g stream = (hasEnded labels g stream || label.ends g stream) := by
  simp [hasEnded]

/-- What is taken in a run and a step is what is taken in the run, and then in the step. -/
theorem taken_concat (hrun : s.run labels = some t) (label : Label) (g : Generation)
    (stream : Stream) : s.taken (labels ++ [label]) g stream =
      s.taken labels g stream ++ t.removes label g stream := by
  induction labels generalizing s with
  | nil =>
    cases hrun
    simp only [List.nil_append, taken]
    split <;> simp
  | cons first labels ih =>
    rw [run_cons] at hrun
    obtain ⟨u, hstep, hrest⟩ := Option.bind_eq_some_iff.mp hrun
    simp only [List.cons_append, taken, hstep]
    rw [ih hrest, List.append_assoc]

/-- A label that hushes a child adds nothing to its history. -/
theorem history_concat_of_hushed (hrun : s.run labels = some t) (hhushed : Hushed t label g)
    (stream : Stream) : written (labels ++ [label]) g stream = written labels g stream ∧
      hasEnded (labels ++ [label]) g stream = hasEnded labels g stream ∧
      s.taken (labels ++ [label]) g stream = s.taken labels g stream := by
  rw [written_concat, hasEnded_concat, taken_concat hrun, hhushed.brings, hhushed.ends,
    hhushed.removes]
  simp

/-! ## One step -/

private theorem recorded_of_absent (hrun : s.run labels = some t)
    (hconfig : t.config = s.config) (hrecorded : Recorded s labels t g)
    (hstep : t.step label = some u) (habsent : t.children.get? g = none) :
    Recorded s (labels ++ [label]) u g := by
  have hhistory := history_concat_of_hushed hrun (hushed_of_absent hstep habsent)
  refine ⟨fun _ stream ↦ ?_, fun c hchild stream ↦ ?_⟩
  · obtain ⟨hwritten, hended, htaken⟩ := hhistory stream
    rw [hwritten, hended, htaken]
    exact hrecorded.absent habsent stream
  · obtain ⟨hwritten, hended, htaken⟩ := hhistory stream
    obtain ⟨hwritten', hended', htaken'⟩ := hrecorded.absent habsent stream
    rw [hwritten, hended, htaken, hwritten', hended', htaken']
    rcases launched_of_step hstep habsent with hnone | ⟨holder, -, hsome⟩
    · rw [hchild] at hnone
      cases hnone
    · rw [hchild] at hsome
      obtain rfl := Option.some.inj hsome
      rw [hconfig]
      cases stream <;> exact Outlet.cut_fresh _ _

section

variable {codec : Codec} {limit : Nat} {stream : Stream}

private theorem cut_of_hushed {o : Outlet} (hrun : s.run labels = some t)
    (hhushed : Hushed t label g)
    (hcut : o.Cut codec limit (hasEnded labels g stream) (written labels g stream)
      (s.taken labels g stream)) :
    o.Cut codec limit (hasEnded (labels ++ [label]) g stream)
      (written (labels ++ [label]) g stream) (s.taken (labels ++ [label]) g stream) := by
  obtain ⟨hwritten, hended, htaken⟩ := history_concat_of_hushed hrun hhushed stream
  rw [hwritten, hended, htaken]
  exact hcut

/-- What comes out of a stream that was touched is cut alike. -/
private theorem cut_of_touch (htouch : Touch t g c label c') (hrun : s.run labels = some t)
    (hchild : t.children.get? g = some c)
    (hcut : (c.outlet stream).Cut codec limit (hasEnded labels g stream)
      (written labels g stream) (s.taken labels g stream)) :
    (c'.outlet stream).Cut codec limit (hasEnded (labels ++ [label]) g stream)
      (written (labels ++ [label]) g stream) (s.taken (labels ++ [label]) g stream) := by
  cases htouch with
  | aside hhushed halike =>
    rw [halike.outlet]
    exact cut_of_hushed hrun hhushed hcut
  | entered _ _ =>
    refine cut_of_hushed hrun (hushed_of_not_isFlow rfl) ?_
    cases stream <;> exact hcut
  | written _ =>
    refine cut_of_hushed hrun (hushed_of_not_isFlow rfl) ?_
    cases stream <;> exact hcut
  | unwritten _ =>
    refine cut_of_hushed hrun (hushed_of_not_isFlow rfl) ?_
    cases stream <;> exact hcut
  | @taken _ stream' token rest hreads hqueue =>
    have hnothing := brings_of_reads hreads g stream
    rw [written_concat, hasEnded_concat, taken_concat hrun, hnothing.1, hnothing.2,
      removes_of_reads hreads hchild hqueue, List.append_nil, Bool.or_false, outlet_setOutlet]
    split
    · next hstream =>
      subst hstream
      exact hcut.take hqueue
    · rw [List.append_nil]
      exact hcut
  | @said stream' bytes hphase =>
    have hremoves : t.removes (.emit g stream' bytes) g stream = [] := removes_of_not_reads rfl
    have hends : (Label.emit g stream' bytes).ends g stream = false := rfl
    rw [written_concat, hasEnded_concat, taken_concat hrun, outlet_setOutlet, hremoves, hends,
      List.append_nil, Bool.or_false]
    split
    · next hstream =>
      subst hstream
      have hbrings : (Label.emit g stream bytes).brings g stream = bytes := if_pos ⟨rfl, rfl⟩
      rw [hbrings]
      exact hcut.feed hphase bytes
    · next hstream =>
      have hbrings : (Label.emit g stream' bytes).brings g stream = [] :=
        if_neg fun heq ↦ hstream heq.2.symm
      rw [hbrings, List.append_nil]
      exact hcut
  | @ended stream' hphase =>
    have hremoves : t.removes (.endStream g stream') g stream = [] := removes_of_not_reads rfl
    have hbrings : (Label.endStream g stream').brings g stream = [] := rfl
    rw [written_concat, hasEnded_concat, taken_concat hrun, outlet_setOutlet, hremoves, hbrings,
      List.append_nil, List.append_nil]
    split
    · next hstream =>
      subst hstream
      have hends : (Label.endStream g stream).ends g stream = true := decide_eq_true rfl
      rw [hends, Bool.or_true]
      exact hcut.close hphase
    · next hstream =>
      have hends : (Label.endStream g stream').ends g stream = false :=
        decide_eq_false fun heq ↦ hstream (Label.endStream.inj heq).2.symm
      rw [hends, Bool.or_false]
      exact hcut
  | advanced stream' phase hhushed hbefore hafter halike =>
    rw [halike.outlet, outlet_setOutlet]
    split
    · next hstream =>
      subst hstream
      exact (cut_of_hushed hrun hhushed hcut).advance hafter
    · exact cut_of_hushed hrun hhushed hcut

end

/-! ## Runs -/

/-- A supervisor that was created keeps its configuration. -/
theorem config_of_run (hrun : s.run labels = some t) : t.config = s.config :=
  run_induction (P := fun _ t ↦ t.config = s.config) rfl
    (fun _ _ _ _ _ hconfig hstep ↦ (config_of_step hstep).trans hconfig) hrun

private theorem recorded_created (config : Config) (g : Generation) :
    Recorded (created config) [] (created config) g := by
  refine ⟨fun _ _ ↦ ⟨rfl, rfl, rfl⟩, fun c hchild stream ↦ ?_⟩
  have hfresh : c = .fresh config false := by
    simp only [created, Table.get?_set, Table.get?_empty] at hchild
    split at hchild
    · exact (Option.some.inj hchild).symm
    · cases hchild
  subst hfresh
  cases stream <;> exact Outlet.cut_fresh _ _

/-- Every run leaves in the streams of the children what was written to them and not taken. -/
theorem recorded_of_run {config : Config} (hrun : (created config).run labels = some t)
    (g : Generation) : Recorded (created config) labels t g := by
  refine run_induction (P := fun labels t ↦ Recorded (created config) labels t g)
    (recorded_created config g) (fun labels label t u hrun hrecorded hstep ↦ ?_) hrun
  cases hchild : t.children.get? g with
  | none => exact recorded_of_absent hrun (config_of_run hrun) hrecorded hstep hchild
  | some c =>
    have hle := ((reachable_created config).run hrun).le_of_child hchild
    obtain ⟨c', hchild', htouch⟩ := touch_of_step hstep hle hchild
    refine ⟨fun hnone ↦ ?_, fun c'' hchild'' stream ↦ ?_⟩
    · rw [hchild'] at hnone
      cases hnone
    · rw [hchild'] at hchild''
      obtain rfl := Option.some.inj hchild''
      exact cut_of_touch htouch hrun hchild (hrecorded.present c hchild stream)

/-- In every run the tokens that were taken from a child's stream and those that wait there are the
tokens of what the child wrote to it. -/
theorem taken_append_queue {config : Config} (hrun : (created config).run labels = some t)
    (hchild : t.children.get? g = some c) (stream : Stream) :
    (created config).taken labels g stream ++ (c.outlet stream).queue =
      (created config).tokens labels g stream :=
  ((recorded_of_run hrun g).present c hchild stream).tokens

end

end Supervisor

end Sidecar
