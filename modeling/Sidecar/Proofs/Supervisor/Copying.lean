import Sidecar.Proofs.Supervisor.Pairing

/-!
# Children that copy

A child may have read the frames that were written to it as a whole, and a part of one that is being
written (`given`). In a run these only grow, by the frame of a caller that begins to write
(`given_of_step`). A child that copies its input to its output (`Copies`) replies to each frame with
that frame: where all of them can be read, it answers in order (`answers_of_copies`).
-/

namespace Sidecar.Supervisor

open Sidecar.Frame

/-- The frames that a child may have read of, in order; the last one may be incomplete. -/
def given (s : Supervisor) (c : Child) : List Bytes :=
  c.requests.reverse ++
    match c.writer.bind s.callers.get? with
    | some (.writing _ frame) => [frame]
    | _ => []

/-- In a run a child takes what is written to it and copies it to its output, and does nothing
else. -/
structure Copies (s : Supervisor) (labels : List Label) (g : Generation) : Prop where
  /-- It stays alive. -/
  alive : ∀ past u c, past <+: labels → s.run past = some u → u.children.get? g = some c →
    c.status = .running
  /-- While it does, it keeps its streams open. -/
  unended : ∀ stream, Label.endStream g stream ∉ labels
  /-- No write to it fails. -/
  writable : ∀ id cause, Label.unwritten id cause ∉ labels
  /-- It writes no errors. -/
  silent : written labels g .err = []
  /-- At any time it has copied a part of what it may have read. -/
  copied : ∀ past u c, past <+: labels → s.run past = some u → u.children.get? g = some c →
    written past g .out <+: (u.given c).flatten

/-- Whether bytes are a frame for the reader of a child's output. -/
def Readable (config : Config) (bytes : Bytes) : Prop :=
  ∃ token, IsRead config.codecRecv config.limit ⟨bytes, token⟩

/-- The replies of a child that copies some frames. -/
def copiesOf (config : Config) (frames : List Bytes) (k : Nat) : Reply :=
  match frames[k]? with
  | some bytes =>
    match config.codecRecv.split bytes false with
    | .ok (some (_, token)) => .answer ⟨bytes, token⟩
    | _ => .complaint ⟨[Bytes.newline], []⟩ []
  | none => .complaint ⟨[Bytes.newline], []⟩ []

/-- The caller that has locked a child's input is the one that writes to it. -/
def Scribe (s : Supervisor) (g : Generation) (c : Child) : Prop :=
  ∀ id, c.writer = some id ↔ ∃ frame, s.callers.get? id = some (.writing g frame)

section

variable {config : Config} {labels past : List Label} {label : Label} {g : Generation}
  {s u v : Supervisor} {c c' : Child} {id : CallerId} {post : Caller}

/-! ## What a child is given -/

/-- While nobody writes, a child has been given whole frames. -/
theorem given_of_no_writer (h : c.writer = none) : s.given c = c.requests.reverse := by
  rw [given, h]
  exact List.append_nil _

/-- While a caller writes its frame, a part of that one is given too. -/
theorem given_of_writing {frame : Bytes} (h : c.writer = some id)
    (hpost : s.callers.get? id = some (.writing g frame)) :
    s.given c = c.requests.reverse ++ [frame] := by
  rw [given, h, Option.bind_some, hpost]

/-- As many frames were given as requests have begun. -/
theorem Scribe.length_given (h : Scribe s g c) : (s.given c).length = c.begun := by
  cases hwriter : c.writer with
  | none => simp [given_of_no_writer hwriter, Child.begun, hwriter]
  | some id =>
    obtain ⟨frame, hpost⟩ := (h id).mp hwriter
    simp [given_of_writing hwriter hpost, Child.begun, hwriter]

/-- Whom nobody writes to, and who was not written to, has been given nothing new. -/
private theorem given_congr (hscribe : Scribe s g c) (hrequests : c'.requests = c.requests)
    (hwriter : c'.writer = c.writer)
    (hwriting : ∀ id frame, u.callers.get? id = some (.writing g frame) ↔
      s.callers.get? id = some (.writing g frame)) :
    Scribe u g c' ∧ u.given c' = s.given c := by
  refine ⟨fun id ↦ ?_, ?_⟩
  · rw [hwriter, hscribe id]
    exact exists_congr fun frame ↦ (hwriting id frame).symm
  · cases hfree : c.writer with
    | none =>
      rw [given_of_no_writer hfree, given_of_no_writer (hwriter.trans hfree), hrequests]
    | some id =>
      obtain ⟨frame, hpost⟩ := (hscribe id).mp hfree
      rw [given_of_writing hfree hpost,
        given_of_writing (hwriter.trans hfree) ((hwriting id frame).mpr hpost), hrequests]

private theorem writing_iff_of_set {post' : Caller} (hpost : u.callers.get? id = some post)
    (hbefore : ∀ frame, post ≠ .writing g frame) (hafter : ∀ frame, post' ≠ .writing g frame)
    (hcallers : v.callers = u.callers.set id post') (id' : CallerId) (frame : Bytes) :
    v.callers.get? id' = some (.writing g frame) ↔ u.callers.get? id' = some (.writing g frame) := by
  rw [hcallers, Table.get?_set]
  split
  · next heq =>
    rw [← heq, hpost, Option.some.injEq, Option.some.injEq]
    exact ⟨fun h ↦ absurd h (hafter frame), fun h ↦ absurd h (hbefore frame)⟩
  · exact Iff.rfl

/-- A caller that locks a child's input gives it a frame. -/
private theorem given_of_entered {frame : Bytes} (hscribe : Scribe u g c) (hfree : c.writer = none)
    (hcallers : v.callers = u.callers.set id (.writing g frame)) :
    Scribe v g { c with writer := some id } ∧
      v.given { c with writer := some id } = u.given c ++ [frame] := by
  have hpost : v.callers.get? id = some (.writing g frame) := by
    rw [hcallers, Table.get?_set_self]
  refine ⟨fun id' ↦ ⟨fun hwriter ↦ ?_, ?_⟩, ?_⟩
  · obtain rfl := Option.some.inj hwriter
    exact ⟨frame, hpost⟩
  · rintro ⟨frame', hwriting⟩
    rw [hcallers, Table.get?_set_eq_some_iff] at hwriting
    obtain ⟨rfl, -⟩ | ⟨-, hother⟩ := hwriting
    · rfl
    · cases ((hscribe id').mpr ⟨frame', hother⟩).symm.trans hfree
  · rw [given_of_no_writer hfree, given_of_writing rfl hpost]

/-- A caller that has written its frame has given it before. -/
private theorem given_of_written {frame : Bytes} (hscribe : Scribe u g c)
    (hpost : u.callers.get? id = some (.writing g frame))
    (hcallers : v.callers = u.callers.set id (.awaiting g)) :
    Scribe v g { c with writer := none, requests := frame :: c.requests } ∧
      v.given { c with writer := none, requests := frame :: c.requests } = u.given c := by
  have hwriter : c.writer = some id := (hscribe id).mpr ⟨frame, hpost⟩
  refine ⟨fun id' ↦ ⟨by simp, ?_⟩, ?_⟩
  · rintro ⟨frame', hwriting⟩
    rw [hcallers, Table.get?_set_eq_some_iff] at hwriting
    obtain ⟨-, hsame⟩ | ⟨hne, hother⟩ := hwriting
    · cases hsame
    · have hlocked := (hscribe id').mpr ⟨frame', hother⟩
      exact absurd (Option.some.inj (hwriter.symm.trans hlocked)) hne
  · rw [given_of_writing hwriter hpost, given_of_no_writer rfl]
    exact List.reverse_cons

/-- A step of an exchange gives the child a frame when the caller begins to write it. -/
private theorem given_of_leg (hscribe : Scribe u g c) (hchild : u.children.get? g = some c)
    (hchild' : v.children.get? g = some c') (hpost : u.callers.get? id = some post)
    (hwritable : ∀ cause, label ≠ .unwritten id cause) (hleg : Leg u id g c post label v) :
    Scribe v g c' ∧ (v.given c' = u.given c ∨
      ∃ frame, u.callers.get? id = some (.entering g frame) ∧
        v.given c' = u.given c ++ [frame]) := by
  have hmodified {f : Child → Child} (hchildren : v.children = u.children.modify g f) :
      c' = f c := by
    rw [hchildren, Table.get?_modify, if_pos rfl, hchild] at hchild'
    exact (Option.some.inj hchild').symm
  have hsame (hchildren : v.children = u.children) : c' = c := by
    rw [hchildren, hchild] at hchild'
    exact (Option.some.inj hchild').symm
  -- A caller that neither begins nor ends to write gives the child nothing.
  have hmoved {post' : Caller} (hcallers : v.callers = u.callers.set id post')
      (hbefore : ∀ frame, post ≠ .writing g frame) (hafter : ∀ frame, post' ≠ .writing g frame)
      (hrequests : c'.requests = c.requests) (hwriter : c'.writer = c.writer) :
      Scribe v g c' ∧ (v.given c' = u.given c ∨
        ∃ frame, u.callers.get? id = some (.entering g frame) ∧
          v.given c' = u.given c ++ [frame]) := by
    obtain ⟨hscribe', hkept⟩ := given_congr hscribe hrequests hwriter
      (writing_iff_of_set hpost hbefore hafter hcallers)
    exact ⟨hscribe', .inl hkept⟩
  cases hleg with
  | @entered frame hfree _ =>
    obtain rfl := hmodified rfl
    let entered := (u.modifyChild g ({ · with writer := some id })).place id (.writing g frame)
    obtain ⟨hscribe', hgiven⟩ := given_of_entered (v := entered) hscribe hfree rfl
    exact ⟨hscribe', .inr ⟨frame, hpost, hgiven⟩⟩
  | shut hfree _ =>
    obtain rfl := hsame rfl
    exact hmoved rfl (by simp) (by simp) rfl rfl
  | @written frame =>
    obtain rfl := hmodified rfl
    let written := (u.modifyChild g fun c ↦
      { c with writer := none, requests := frame :: c.requests }).place id (.awaiting g)
    obtain ⟨hscribe', hgiven⟩ := given_of_written (v := written) hscribe hpost rfl
    exact ⟨hscribe', .inl hgiven⟩
  | unwritten => exact absurd rfl (hwritable _)
  | answered | complained | collected =>
    obtain rfl := hmodified rfl
    exact hmoved rfl (by simp) (by simp) (requests_setOutlet ..) (writer_setOutlet ..)
  | parted | concluded =>
    obtain rfl := hsame rfl
    exact hmoved rfl (by simp) (by simp) rfl rfl

/-- A step that is none of an exchange with a child begins no request and ends none. -/
theorem requests_of_touch (hnobody : ∀ id post, label.caller? = some id →
      u.callers.get? id = some post → post.partner? ≠ some g) (htouch : Touch u g c label c') :
    c'.requests = c.requests ∧ c'.writer = c.writer := by
  cases htouch with
  | aside _ halike => exact ⟨halike.requests, halike.writer⟩
  | entered hpost _ => exact absurd rfl (hnobody _ _ rfl hpost)
  | written hpost => exact absurd rfl (hnobody _ _ rfl hpost)
  | unwritten hpost => exact absurd rfl (hnobody _ _ rfl hpost)
  | taken | said | ended => simp
  | advanced _ _ _ _ _ halike =>
    exact ⟨halike.requests.trans (requests_setOutlet ..),
      halike.writer.trans (writer_setOutlet ..)⟩

/-- In a step a child is given nothing new, or the frame of a caller that begins to write. -/
theorem given_of_step (hu : u.Reachable) (hscribe : Scribe u g c)
    (hchild : u.children.get? g = some c) (hstep : u.step label = some v)
    (hchild' : v.children.get? g = some c')
    (hwritable : ∀ id cause, label ≠ .unwritten id cause) :
    Scribe v g c' ∧ (v.given c' = u.given c ∨
      ∃ id frame, u.callers.get? id = some (.entering g frame) ∧
        v.given c' = u.given c ++ [frame]) := by
  rcases leg_or_nobody_of_step hstep hchild with ⟨id, post, hown, hpost, hleg⟩ | hnobody
  · obtain ⟨hscribe', hgiven⟩ := given_of_leg hscribe hchild hchild' hpost (hwritable id) hleg
    exact ⟨hscribe', hgiven.imp_right fun hnew ↦ ⟨id, hnew⟩⟩
  · obtain ⟨c'', hchild'', htouch⟩ := touch_of_step hstep (hu.le_of_child hchild) hchild
    obtain rfl := Option.some.inj (hchild'.symm.trans hchild'')
    obtain ⟨hrequests, hwriter⟩ := requests_of_touch hnobody htouch
    have hkept := given_congr hscribe hrequests hwriter fun id frame ↦
      engaged_iff_of_step hu hstep hnobody id (.writing g frame) rfl
    exact ⟨hkept.1, .inl hkept.2⟩

/-- In a run in which no write fails the first child's input is locked by whoever writes to it. -/
theorem scribe_of_run (hrun : (created config).run past = some u)
    (hwritable : ∀ id cause, Label.unwritten id cause ∉ past) :
    ∃ c, u.children.get? 1 = some c ∧ Scribe u 1 c := by
  refine run_induction (P := fun past u ↦ (∀ id cause, Label.unwritten id cause ∉ past) →
    ∃ c, u.children.get? 1 = some c ∧ Scribe u 1 c) (fun _ ↦ ?_)
    (fun past label t v hpast ih hstep hwritable ↦ ?_) hrun hwritable
  · refine ⟨.fresh config false, Table.get?_set_self .., fun id ↦ ⟨by simp [Child.fresh], ?_⟩⟩
    rintro ⟨frame, hpost⟩
    cases hpost
  · obtain ⟨c, hchild, hscribe⟩ := ih fun id cause hmem ↦
      hwritable id cause (List.mem_append_left _ hmem)
    have ht := (reachable_created config).run hpast
    obtain ⟨c', hchild', -⟩ := touch_of_step hstep (ht.le_of_child hchild) hchild
    exact ⟨c', hchild', (given_of_step ht hscribe hchild hstep hchild' fun id cause heq ↦
      hwritable id cause (by simp [heq])).1⟩

/-- What a child has been given at some time comes first in what it is given later. -/
theorem given_prefix_of_run {more : List Label} (hpast : (created config).run past = some u)
    (hchild : u.children.get? 1 = some c) (hmore : u.run more = some v)
    (hchild' : v.children.get? 1 = some c')
    (hwritable : ∀ id cause, Label.unwritten id cause ∉ past ++ more) :
    u.given c <+: v.given c' := by
  refine run_induction (P := fun more v ↦ (∀ id cause, Label.unwritten id cause ∉ past ++ more) →
    ∀ c', v.children.get? 1 = some c' → u.given c <+: v.given c')
    (fun _ c' hchild' ↦ ?_) (fun more label t v hmore ih hstep hwritable c' hchild' ↦ ?_) hmore
    hwritable c' hchild'
  · obtain rfl := Option.some.inj (hchild.symm.trans hchild')
    exact List.prefix_rfl
  · rw [← List.append_assoc] at hwritable
    have hbefore : ∀ id cause, Label.unwritten id cause ∉ past ++ more := fun id cause hmem ↦
      hwritable id cause (List.mem_append_left _ hmem)
    have hrun : (created config).run (past ++ more) = some t := by
      rw [run_append, hpast]
      exact hmore
    obtain ⟨c₁, hchild₁, hscribe⟩ := scribe_of_run hrun hbefore
    refine (ih hbefore c₁ hchild₁).trans ?_
    obtain hsame | ⟨_, frame, -, hmoreGiven⟩ :=
      (given_of_step ((reachable_created config).run hrun) hscribe hchild₁ hstep hchild'
        fun id cause heq ↦ hwritable id cause (by simp [heq])).2
    · rw [hsame]
    · rw [hmoreGiven]
      exact List.prefix_append _ _

/-! ## Copies are replies -/

/-- A child that copies in a run copies in its first part. -/
theorem Copies.of_prefix (h : Copies s labels g) (hpast : past <+: labels) : Copies s past g := by
  obtain ⟨more, rfl⟩ := hpast
  have hsilent := h.silent
  rw [written, List.flatMap_append] at hsilent
  exact ⟨fun before u c hbefore ↦ h.alive before u c (hbefore.trans (List.prefix_append _ _)),
    fun stream hmem ↦ h.unended stream (List.mem_append_left _ hmem),
    fun id cause hmem ↦ h.writable id cause (List.mem_append_left _ hmem),
    (List.append_eq_nil_iff.mp hsilent).1,
    fun before u c hbefore ↦ h.copied before u c (hbefore.trans (List.prefix_append _ _))⟩

/-- A frame that was given is replied to with itself. -/
theorem copiesOf_of_isRead {frames : List Bytes} {k : Nat} {bytes token : Bytes}
    (hget : frames[k]? = some bytes)
    (hread : IsRead config.codecRecv config.limit ⟨bytes, token⟩) :
    copiesOf config frames k = .answer ⟨bytes, token⟩ := by
  simp only [copiesOf, hget, hread.splits]

/-- The copies of the first frames are their bytes. -/
theorem firstFrames_copiesOf {frames : List Bytes}
    (hread : ∀ bytes ∈ frames, Readable config bytes) {n : Nat} (hn : n ≤ frames.length) :
    wire (firstFrames (copiesOf config frames) n .out) = (frames.take n).flatten ∧
      firstFrames (copiesOf config frames) n .err = [] := by
  induction n with
  | zero => simp [firstFrames]
  | succ n ih =>
    obtain ⟨hout, herr⟩ := ih (Nat.le_of_succ_le hn)
    have hget : frames[n]? = some frames[n] := List.getElem?_eq_getElem hn
    obtain ⟨token, htoken⟩ := hread frames[n] (List.getElem_mem hn)
    rw [firstFrames_succ, firstFrames_succ, copiesOf_of_isRead hget htoken, wire_append, hout,
      herr, List.take_add_one, hget, List.flatten_append]
    exact ⟨by simp [Reply.frames, wire], rfl⟩

private theorem isRead_copiesOf {frames : List Bytes}
    (hread : ∀ bytes ∈ frames, Readable config bytes) (k : Nat) (stream : Stream) :
    ∀ f ∈ (copiesOf config frames k).frames stream,
      f.IsRead (config.codecOf stream) config.limit := by
  intro f hf
  cases hget : frames[k]? with
  | none =>
    simp only [copiesOf, hget] at hf
    cases stream with
    | out => cases hf
    | err =>
      obtain rfl := List.mem_singleton.mp hf
      have hline : Codec.lines.split [Bytes.newline] false = .ok (some (1, [])) := by decide
      exact ⟨limit_pos config, hline⟩
  | some bytes =>
    obtain ⟨token, htoken⟩ := hread bytes (List.mem_of_getElem? hget)
    rw [copiesOf_of_isRead hget htoken] at hf
    cases stream with
    | out =>
      obtain rfl := List.mem_singleton.mp hf
      exact htoken
    | err => cases hf

/-- A child that copies frames that can be read replies to each of them in order. -/
theorem answers_of_copies (hcopies : Copies (created config) labels 1)
    (hrun : (created config).run labels = some u) (hchild : u.children.get? 1 = some c)
    (hread : ∀ bytes ∈ u.given c, Readable config bytes) :
    Answers (created config) labels 1 (copiesOf config (u.given c)) := by
  -- What was given at some time are the first frames of what was given in the end.
  have hgiven : ∀ past t c', past <+: labels → (created config).run past = some t →
      t.children.get? 1 = some c' →
      c'.begun ≤ (u.given c).length ∧ t.given c' = (u.given c).take c'.begun := by
    intro past t c' hpast ht hchild'
    have hwritable := (hcopies.of_prefix hpast).writable
    obtain ⟨more, rfl⟩ := hpast
    rw [run_append, ht] at hrun
    obtain ⟨c'', hchild'', hscribe⟩ := scribe_of_run ht hwritable
    obtain rfl := Option.some.inj (hchild'.symm.trans hchild'')
    have hfirst := given_prefix_of_run ht hchild' hrun hchild hcopies.writable
    rw [← hscribe.length_given]
    exact ⟨hfirst.length_le, List.prefix_iff_eq_take.mp hfirst⟩
  refine ⟨isRead_copiesOf hread, hcopies.alive, hcopies.unended,
    fun past t c' stream hpast ht hchild' ↦ ?_, fun past id t c' lines hpast ht _ hchild' ↦ ?_⟩
  · obtain ⟨hle, heq⟩ := hgiven past t c' hpast ht hchild'
    cases stream with
    | out =>
      rw [(firstFrames_copiesOf hread hle).1, ← heq]
      exact hcopies.copied past t c' hpast ht hchild'
    | err =>
      rw [(hcopies.of_prefix hpast).silent]
      exact List.nil_prefix
  · obtain ⟨hle, -⟩ := hgiven past t c' ((List.prefix_append _ _).trans hpast) ht hchild'
    have hrequests : c'.requests.length ≤ c'.begun := Nat.le_add_right _ _
    rw [(firstFrames_copiesOf hread (hrequests.trans hle)).2]
    exact List.nil_prefix

/-! ## One label more -/

/-- A child goes on copying under a label that is no fault, if it has copied no more than it was
given. -/
theorem Copies.concat (h : Copies s labels g) (hrun : s.run (labels ++ [label]) = some v)
    (hends : ∀ stream, label ≠ .endStream g stream)
    (hwritable : ∀ id cause, label ≠ .unwritten id cause) (hsilent : label.brings g .err = [])
    (hhere : ∀ c, v.children.get? g = some c → c.status = .running ∧
      written labels g .out ++ label.brings g .out <+: (v.given c).flatten) :
    Copies s (labels ++ [label]) g := by
  have hnew : ∀ past u c, past <+: labels ++ [label] → s.run past = some u →
      u.children.get? g = some c →
      c.status = .running ∧ written past g .out <+: (u.given c).flatten := by
    intro past u c hpast hu hchild
    obtain rfl | hpast := List.prefix_concat_iff.mp hpast
    · obtain rfl := Option.some.inj (hrun.symm.trans hu)
      rw [written_concat]
      exact hhere c hchild
    · exact ⟨h.alive past u c hpast hu hchild, h.copied past u c hpast hu hchild⟩
  refine ⟨fun past u c hpast hu hchild ↦ (hnew past u c hpast hu hchild).1, fun stream hmem ↦ ?_,
    fun id cause hmem ↦ ?_, ?_, fun past u c hpast hu hchild ↦ (hnew past u c hpast hu hchild).2⟩
  · obtain hmem | hmem := List.mem_append.mp hmem
    · exact h.unended stream hmem
    · exact hends stream (List.mem_singleton.mp hmem).symm
  · obtain hmem | hmem := List.mem_append.mp hmem
    · exact h.writable id cause hmem
    · exact hwritable id cause (List.mem_singleton.mp hmem).symm
  · rw [written_concat, h.silent, hsilent]
    rfl

/-- A child goes on copying while a caller takes a step, unless that kills the child. -/
theorem Copies.concat_of_caller (h : Copies (created config) labels 1)
    (hrun : (created config).run labels = some u) (hown : label.caller? = some id)
    (hwritable : ∀ id cause, label ≠ .unwritten id cause) (hstep : u.step label = some v)
    (hstatus : ∀ c, v.children.get? 1 = some c → c.status = .running) :
    Copies (created config) (labels ++ [label]) 1 := by
  have hbrings (stream : Stream) : label.brings 1 stream = [] := by
    cases label <;> first | rfl | cases hown
  refine h.concat (run_concat_eq_some.mpr ⟨u, hrun, hstep⟩) (fun stream heq ↦ ?_) hwritable
    (hbrings .err) fun c' hchild' ↦ ⟨hstatus c' hchild', ?_⟩
  · rw [heq] at hown
    cases hown
  · obtain ⟨c, hchild, hscribe⟩ := scribe_of_run hrun h.writable
    have hgiven := (given_of_step ((reachable_created config).run hrun) hscribe hchild hstep
      hchild' hwritable).2
    have hcopied := h.copied labels u c List.prefix_rfl hrun hchild
    rw [hbrings, List.append_nil]
    obtain hsame | ⟨_, frame, -, hmore⟩ := hgiven
    · rwa [hsame]
    · rw [hmore, List.flatten_append]
      exact hcopied.trans (List.prefix_append _ _)

/-- Whether a child copies along a run can be seen state by state. -/
theorem copies_of_holdsAlong (hunended : ∀ stream, Label.endStream g stream ∉ labels)
    (hwritable : ∀ id cause, Label.unwritten id cause ∉ labels)
    (hsilent : written labels g .err = [])
    (hobeys : s.holdsAlong labels (fun past u ↦ (u.children.get? g).all fun c ↦
      c.status = .running && (written past g .out).isPrefixOf (u.given c).flatten) = true) :
    Copies s labels g := by
  have hhere : ∀ past u c, past <+: labels → s.run past = some u → u.children.get? g = some c →
      c.status = .running ∧ written past g .out <+: (u.given c).flatten := by
    intro past u c hpast hrun hchild
    have hall := of_holdsAlong hobeys hpast hrun
    simp only [hchild, Option.all_some, Bool.and_eq_true, decide_eq_true_eq,
      List.isPrefixOf_iff_prefix] at hall
    exact hall
  exact ⟨fun past u c hpast hrun hchild ↦ (hhere past u c hpast hrun hchild).1, hunended, hwritable,
    hsilent, fun past u c hpast hrun hchild ↦ (hhere past u c hpast hrun hchild).2⟩

end

end Sidecar.Supervisor
