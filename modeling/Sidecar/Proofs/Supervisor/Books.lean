import Sidecar.Proofs.Supervisor.Copying
import Sidecar.Proofs.Supervisor.Tenure

/-!
# Requests and answers in numbers

The exchanges with a child are counted along a run. Each request that was written is answered, or its
exchange is forsaken, or a caller still waits; each token of the child's output that was taken is an
answer, or the warden has thrown it away. So where exchanges do not overlap the numbers agree
(`balanced_of_run`), whatever the child writes.
-/

namespace Sidecar.Supervisor

/-- The child whose answer a caller waits for. -/
def Caller.waitsFor? : Caller → Option Generation
  | .awaiting g => some g
  | .collecting g _ => some g
  | _ => none

/-- Whether a caller has been told of a failure. -/
def Caller.hasFailed : Caller → Bool
  | .done (.failed _) => true
  | _ => false

/-- The caller that is told of a failure in a step though its request to a child has been written. -/
def forsakes? (s : Supervisor) (label : Label) (g : Generation) (t : Supervisor) : Option CallerId :=
  label.caller?.filter fun id ↦ (s.callers.get? id).any (·.waitsFor? = some g) &&
    (t.callers.get? id).any (·.hasFailed)

/-- The answer of a child that the warden throws away under a label. -/
def discards? (s : Supervisor) (label : Label) (g : Generation) : Option Bytes :=
  match label with
  | .discard .out => (s.removes label g .out).head?
  | _ => none

/-- The exchanges with a child that failed in a run though their requests had been written, in
order. -/
def forsaken (s : Supervisor) (labels : List Label) (g : Generation) : List CallerId :=
  s.seen (fun u label v ↦ u.forsakes? label g v) labels

/-- The answers of a child that the warden threw away in a run, in order. -/
def discarded (s : Supervisor) (labels : List Label) (g : Generation) : List Bytes :=
  s.seen (fun u label _ ↦ u.discards? label g) labels

/-- The number of requests that were written to a child as a whole. -/
def requestCount (s : Supervisor) (g : Generation) : Nat :=
  (s.children.get? g).elim 0 (·.requests.length)

/-- The number of the answer that is taken next from a child's output. -/
def answerNumber (s : Supervisor) (past : List Label) (g : Generation) : Nat :=
  (s.taken past g .out).length

/-- The books after a run, by whether a caller waits for an answer. -/
inductive Balanced (s : Supervisor) (past : List Label) (g : Generation) (u : Supervisor) : Prop where
  | settled (hnobody : ∀ id post, u.callers.get? id = some post → post.waitsFor? ≠ some g)
      (hcount : u.requestCount g + (s.discarded past g).length =
        s.answerNumber past g + (s.forsaken past g).length)
  | awaited {id : CallerId} {post : Caller} (hpost : u.callers.get? id = some post)
      (hwaits : post.waitsFor? = some g)
      (hcount : u.requestCount g + (s.discarded past g).length =
        s.answerNumber past g + (s.forsaken past g).length + 1)

section

variable {config : Config} {labels past : List Label} {label : Label} {g : Generation}
  {s u v : Supervisor} {c c' : Child} {id : CallerId} {post post' : Caller}
  {callers : Table CallerId Caller}

/-! ## What a step adds -/

/-- A caller that waits for an answer keeps the child busy. -/
theorem Caller.engaged_of_waitsFor (h : post.waitsFor? = some g) : post.engaged? = some g := by
  cases post <;> first | exact h | cases h

theorem forsaken_concat (hrun : s.run past = some u) (hstep : u.step label = some v) :
    s.forsaken (past ++ [label]) g = s.forsaken past g ++ (u.forsakes? label g v).toList :=
  seen_concat hrun hstep

theorem discarded_concat (hrun : s.run past = some u) (hstep : u.step label = some v) :
    s.discarded (past ++ [label]) g = s.discarded past g ++ (u.discards? label g).toList :=
  seen_concat hrun hstep

/-- A step of a caller that waits for no answer, or of nobody, forsakes no exchange. -/
theorem forsakes?_eq_none (h : ∀ id post, label.caller? = some id →
    u.callers.get? id = some post → post.waitsFor? ≠ some g) : u.forsakes? label g v = none := by
  rw [forsakes?, Option.filter_eq_none_iff]
  intro id hown hboth
  cases hpost : u.callers.get? id with
  | none => simp [hpost] at hboth
  | some post =>
    have hnot := h id post hown hpost
    simp [hpost, hnot] at hboth

/-- A step that tells its caller of no failure forsakes no exchange. -/
theorem forsakes?_of_goesOn (hown : label.caller? = some id)
    (hcallers : v.callers = callers.set id post') (hfine : post'.hasFailed = false) :
    u.forsakes? label g v = none := by
  simp [forsakes?, hown, hcallers, hfine, Option.filter]

/-- A caller that waits for an answer forsakes it when it is told of a failure. -/
theorem forsakes?_of_fails (hown : label.caller? = some id) (hpost : u.callers.get? id = some post)
    (hwaits : post.waitsFor? = some g) (hcallers : v.callers = callers.set id post')
    (hfailed : post'.hasFailed = true) : u.forsakes? label g v = some id := by
  simp [forsakes?, hown, hpost, hcallers, hwaits, hfailed, Option.filter]

/-- A label that is not the warden's throws nothing away. -/
theorem discards?_of_caller (h : label.caller? = some id) : u.discards? label g = none := by
  cases label <;> first | rfl | cases h

/-- What the warden throws away is an answer of a child that it drains. -/
theorem draining_of_discards? (h : u.discards? label g ≠ none) : u.warden = .draining g := by
  cases label with
  | discard stream =>
    cases stream with
    | out =>
      simp only [discards?, removes] at h
      split at h
      · next hreads =>
        simp only [reads?] at hreads
        split at hreads
        · next hwarden =>
          cases hreads
          exact hwarden
        · cases hreads
      · exact absurd rfl h
    | err => exact absurd rfl h
  | _ => exact absurd rfl h

/-- What a step that is none of an exchange with a child takes from its output is thrown away. -/
theorem removes_eq_discards (hnobody : ∀ id post, label.caller? = some id →
    u.callers.get? id = some post → post.partner? ≠ some g) :
    u.removes label g .out = (u.discards? label g).toList := by
  cases label with
  | receive id stream =>
    have hreads : u.reads? (.receive id stream) ≠ some (g, .out) := by
      intro hreads
      simp only [reads?] at hreads
      split at hreads
      · next hpost =>
        cases hreads
        exact hnobody _ _ rfl hpost rfl
      · next hpost =>
        cases hreads
        exact hnobody _ _ rfl hpost rfl
      · cases hreads
    exact if_neg hreads
  | discard stream =>
    cases stream with
    | out =>
      simp only [discards?, removes]
      split
      · cases u.children.get? g with
        | none => rfl
        | some c =>
          dsimp only
          cases (c.outlet .out).queue.head? <;> rfl
      · rfl
    | err =>
      refine if_neg fun hreads ↦ ?_
      simp only [reads?] at hreads
      split at hreads <;> cases hreads
  | _ => exact removes_of_not_reads rfl

/-- A caller that waits for an answer takes the oldest token of the child's output when it turns to
it, and nothing of it when it turns to the errors. -/
theorem removes_of_waits (hpost : u.callers.get? id = some post)
    (hwaits : post.waitsFor? = some g) (hchild : u.children.get? g = some c) (stream : Stream) :
    u.removes (.receive id stream) g .out =
      if stream = .out then c.out.queue.head?.toList else [] := by
  have hreads : u.reads? (.receive id stream) = some (g, stream) := by
    cases post <;> cases hwaits <;> simp only [reads?, hpost]
  cases stream <;> simp [removes, hreads, hchild, Child.outlet]

theorem requestCount_of_child (hchild : u.children.get? g = some c) :
    u.requestCount g = c.requests.length := by
  simp [requestCount, hchild]

theorem requestCount_modifyChild (hchild : u.children.get? g = some c) (f : Child → Child)
    (id : CallerId) (post : Caller) :
    ((u.modifyChild g f).place id post).requestCount g = (f c).requests.length := by
  simp [requestCount, place, modifyChild, Table.get?_modify, hchild]

/-- What a step of an exchange does to the books, and where it takes the caller. -/
inductive Entry (u : Supervisor) (g : Generation) (label : Label) (v : Supervisor) (post : Caller) :
    Caller → Prop where
  /-- Nothing. -/
  | aside {post' : Caller} (hrequests : v.requestCount g = u.requestCount g)
      (htaken : u.removes label g .out = []) (hforsaken : u.forsakes? label g v = none)
      (hwaits : post'.waitsFor? = post.waitsFor?) : Entry u g label v post post'
  /-- Its request has been written. -/
  | written {post' : Caller} (hrequests : v.requestCount g = u.requestCount g + 1)
      (htaken : u.removes label g .out = []) (hforsaken : u.forsakes? label g v = none)
      (hbefore : post.waitsFor? ≠ some g) (hafter : post'.waitsFor? = some g) :
      Entry u g label v post post'
  /-- It has taken an answer. -/
  | taken {post' : Caller} {token : Bytes} (hrequests : v.requestCount g = u.requestCount g)
      (htaken : u.removes label g .out = [token]) (hforsaken : u.forsakes? label g v = none)
      (hbefore : post.waitsFor? = some g) (hafter : post'.waitsFor? ≠ some g) :
      Entry u g label v post post'
  /-- It has failed. -/
  | forsaken {post' : Caller} {id : CallerId} (hrequests : v.requestCount g = u.requestCount g)
      (htaken : u.removes label g .out = []) (hforsaken : u.forsakes? label g v = some id)
      (hbefore : post.waitsFor? = some g) (hafter : post'.waitsFor? ≠ some g) :
      Entry u g label v post post'

/-- A step of an exchange makes one of the entries. -/
theorem Leg.entry (hleg : Leg u id g c post label v) (hown : label.caller? = some id)
    (hchild : u.children.get? g = some c) (hpost : u.callers.get? id = some post) :
    ∃ post', v.callers = u.callers.set id post' ∧ Entry u g label v post post' := by
  have hcount := requestCount_of_child hchild
  have hmodified := requestCount_modifyChild hchild
  -- Who does not wait for an answer forsakes none.
  have hidle : post.waitsFor? ≠ some g → u.forsakes? label g v = none := by
    intro hnot
    refine forsakes?_eq_none fun id' post' hown' hpost' ↦ ?_
    obtain rfl := Option.some.inj (hown.symm.trans hown')
    obtain rfl := Option.some.inj (hpost.symm.trans hpost')
    exact hnot
  cases hleg with
  | entered =>
    exact ⟨_, rfl, .aside ((hmodified ..).trans hcount.symm) (removes_of_not_reads rfl)
      (forsakes?_of_goesOn hown rfl rfl) rfl⟩
  | shut =>
    exact ⟨_, rfl, .aside rfl (removes_of_not_reads rfl) (hidle (by simp [Caller.waitsFor?])) rfl⟩
  | written =>
    refine ⟨_, rfl, .written ?_ (removes_of_not_reads rfl) (forsakes?_of_goesOn hown rfl rfl)
      (by simp [Caller.waitsFor?]) rfl⟩
    rw [hmodified, hcount, List.length_cons]
  | unwritten =>
    exact ⟨_, rfl, .aside ((hmodified ..).trans hcount.symm) (removes_of_not_reads rfl)
      (hidle (by simp [Caller.waitsFor?])) rfl⟩
  | @answered token rest hqueue =>
    have htaken := removes_of_waits hpost rfl hchild .out
    rw [if_pos rfl, hqueue] at htaken
    exact ⟨_, rfl, .taken ((hmodified ..).trans hcount.symm) htaken
      (forsakes?_of_goesOn hown rfl rfl) rfl (by simp [Caller.waitsFor?])⟩
  | complained =>
    exact ⟨_, rfl, .aside ((hmodified ..).trans hcount.symm) (removes_of_waits hpost rfl hchild .err)
      (forsakes?_of_goesOn hown rfl rfl) rfl⟩
  | @parted stream hqueue _ =>
    refine ⟨_, rfl, .forsaken rfl ?_ (forsakes?_of_fails hown hpost rfl rfl rfl) rfl
      (by simp [Caller.waitsFor?])⟩
    rw [removes_of_waits hpost rfl hchild stream]
    cases stream with
    | out =>
      simp only [Child.outlet] at hqueue
      rw [hqueue]
      rfl
    | err => rfl
  | collected =>
    exact ⟨_, rfl, .aside ((hmodified ..).trans hcount.symm) (removes_of_waits hpost rfl hchild .err)
      (forsakes?_of_goesOn hown rfl rfl) rfl⟩
  | concluded hlabel _ =>
    refine ⟨_, rfl, .forsaken rfl ?_ (forsakes?_of_fails hown hpost rfl rfl rfl) rfl
      (by simp [Caller.waitsFor?])⟩
    obtain rfl | ⟨rfl, -⟩ := hlabel
    · exact removes_of_not_reads rfl
    · exact removes_of_waits hpost rfl hchild .err

/-! ## The books along a run -/

theorem answerNumber_concat (hrun : s.run past = some u) (label : Label) :
    s.answerNumber (past ++ [label]) g =
      s.answerNumber past g + (u.removes label g .out).length := by
  rw [answerNumber, answerNumber, taken_concat hrun, List.length_append]

/-- Where one caller has moved, another one waits for an answer if it did before. -/
theorem get?_of_moved (hcallers : v.callers = u.callers.set id post')
    {id' : CallerId} (hne : id ≠ id') : v.callers.get? id' = u.callers.get? id' := by
  rw [hcallers, Table.get?_set_of_ne _ _ hne]

/-- A caller that waits for an answer of a child, or has begun to, does so alone. -/
theorem Serialized.alone (hserial : Serialized s labels g) (hwithin : past <+: labels)
    (hrun : s.run past = some u) {id' : CallerId} (hpost : u.callers.get? id = some post)
    (hpost' : u.callers.get? id' = some post') (hwaits : post.waitsFor? = some g)
    (hwaits' : post'.waitsFor? = some g) : id = id' :=
  hserial past u id id' post post' hwithin hrun hpost hpost' (Caller.engaged_of_waitsFor hwaits)
    (Caller.engaged_of_waitsFor hwaits')

/-- A step of an exchange keeps the books. -/
private theorem Balanced.leg (h : Balanced s past g u) (hserial : Serialized s labels g)
    (hwithin : past ++ [label] <+: labels) (hrun : s.run past = some u)
    (hstep : u.step label = some v) (hown : label.caller? = some id)
    (hpost : u.callers.get? id = some post) (hcallers : v.callers = u.callers.set id post')
    (hentry : Entry u g label v post post') : Balanced s (past ++ [label]) g v := by
  have hbefore : past <+: labels := (List.prefix_append _ _).trans hwithin
  have hrun' : s.run (past ++ [label]) = some v := run_concat_eq_some.mpr ⟨u, hrun, hstep⟩
  have hself : v.callers.get? id = some post' := by rw [hcallers, Table.get?_set_self]
  have hother : ∀ id', id ≠ id' → v.callers.get? id' = u.callers.get? id' := fun _ ↦
    get?_of_moved hcallers
  have hanswers := answerNumber_concat (g := g) hrun label
  have hforsakes := congrArg List.length (forsaken_concat (g := g) hrun hstep)
  have hdiscards := congrArg List.length (discarded_concat (g := g) hrun hstep)
  rw [discards?_of_caller hown] at hdiscards
  simp only [List.length_append, Option.toList_none, List.length_nil] at hforsakes hdiscards
  -- Where the caller waits, the books say so; where it does not go on to wait, nobody does.
  have hwaited : post.waitsFor? = some g → u.requestCount g + (s.discarded past g).length =
      s.answerNumber past g + (s.forsaken past g).length + 1 := by
    intro hwaits
    cases h with
    | settled hnobody _ => exact absurd hwaits (hnobody id post hpost)
    | awaited _ _ hcount => exact hcount
  have hnobody : post.waitsFor? = some g → post'.waitsFor? ≠ some g →
      ∀ id' p, v.callers.get? id' = some p → p.waitsFor? ≠ some g := by
    intro hwaits hnot id' p hp hwaits'
    by_cases hne : id = id'
    · subst hne
      obtain rfl := Option.some.inj (hself.symm.trans hp)
      exact hnot hwaits'
    · rw [hother id' hne] at hp
      exact hne (hserial.alone hbefore hrun hpost hp hwaits hwaits')
  cases hentry with
  | aside hrequests htaken hforsaken hwaits =>
    simp only [htaken, hforsaken, Option.toList_none, List.length_nil] at hanswers hforsakes
    cases h with
    | settled hnobody hcount =>
      refine .settled (fun id' p hp ↦ ?_) (by omega)
      by_cases hne : id = id'
      · subst hne
        obtain rfl := Option.some.inj (hself.symm.trans hp)
        rw [hwaits]
        exact hnobody id post hpost
      · rw [hother id' hne] at hp
        exact hnobody id' p hp
    | @awaited id' p hp hwaits' hcount =>
      by_cases hne : id = id'
      · subst hne
        obtain rfl := Option.some.inj (hpost.symm.trans hp)
        exact .awaited hself (hwaits.trans hwaits') (by omega)
      · exact .awaited ((hother id' hne).trans hp) hwaits' (by omega)
  | written hrequests htaken hforsaken hnot hafter =>
    simp only [htaken, hforsaken, Option.toList_none, List.length_nil] at hanswers hforsakes
    cases h with
    | settled _ hcount => exact .awaited hself hafter (by omega)
    | @awaited id' p hp hwaits' _ =>
      have hne : id ≠ id' := by
        rintro rfl
        obtain rfl := Option.some.inj (hpost.symm.trans hp)
        exact hnot hwaits'
      exact absurd (hserial.alone hwithin hrun' hself ((hother id' hne).trans hp) hafter hwaits') hne
  | taken hrequests htaken hforsaken hwaits hnot =>
    simp only [htaken, hforsaken, Option.toList_none, List.length_nil, List.length_singleton]
      at hanswers hforsakes
    have hcount := hwaited hwaits
    exact .settled (hnobody hwaits hnot) (by omega)
  | forsaken hrequests htaken hforsaken hwaits hnot =>
    simp only [htaken, hforsaken, Option.toList_some, List.length_nil, List.length_singleton]
      at hanswers hforsakes
    have hcount := hwaited hwaits
    exact .settled (hnobody hwaits hnot) (by omega)

/-- A step that is none of an exchange with a child writes no request. -/
theorem requestCount_of_nobody (hu : u.Reachable) (hstep : u.step label = some v)
    (hnobody : ∀ id post, label.caller? = some id → u.callers.get? id = some post →
      post.partner? ≠ some g) : v.requestCount g = u.requestCount g := by
  cases hchild : u.children.get? g with
  | none =>
    rcases launched_of_step hstep hchild with hnone | ⟨holder, -, hfresh⟩
    · simp [requestCount, hchild, hnone]
    · simp [requestCount, hchild, hfresh, Child.fresh]
  | some c =>
    obtain ⟨c', hchild', htouch⟩ := touch_of_step hstep (hu.le_of_child hchild) hchild
    rw [requestCount_of_child hchild, requestCount_of_child hchild',
      (requests_of_touch hnobody htouch).1]

/-- A step that is none of an exchange with a child keeps the books: an answer that is taken is
thrown away. -/
private theorem Balanced.aside (h : Balanced s past g u) (hu : u.Reachable)
    (hrun : s.run past = some u) (hstep : u.step label = some v)
    (hnobody : ∀ id post, label.caller? = some id → u.callers.get? id = some post →
      post.partner? ≠ some g) : Balanced s (past ++ [label]) g v := by
  have hrequests := requestCount_of_nobody hu hstep hnobody
  have hanswers := answerNumber_concat (g := g) hrun label
  rw [removes_eq_discards hnobody] at hanswers
  have hforsakes := congrArg List.length (forsaken_concat (g := g) hrun hstep)
  have hdiscards := congrArg List.length (discarded_concat (g := g) hrun hstep)
  have hnone : u.forsakes? label g v = none := forsakes?_eq_none fun id post hown hpost hwaits ↦
    hnobody id post hown hpost (partner_of_engaged (Caller.engaged_of_waitsFor hwaits))
  rw [hnone] at hforsakes
  simp only [List.length_append, Option.toList_none, List.length_nil] at hforsakes hdiscards
  have hstays := engaged_iff_of_step hu hstep hnobody
  cases h with
  | settled hsettled hcount =>
    refine .settled (fun id post hpost hwaits ↦ ?_) (by omega)
    have hengaged := Caller.engaged_of_waitsFor hwaits
    exact hsettled id post ((hstays id post hengaged).mp hpost) hwaits
  | @awaited id post hpost hwaits hcount =>
    have hengaged := Caller.engaged_of_waitsFor hwaits
    exact .awaited ((hstays id post hengaged).mpr hpost) hwaits (by omega)

/-- The books are kept in every run in which exchanges do not overlap. -/
theorem balanced_of_run (hserial : Serialized (created config) labels g)
    (hwithin : past <+: labels) (hrun : (created config).run past = some u) :
    Balanced (created config) past g u := by
  refine run_induction (P := fun past u ↦ past <+: labels → Balanced (created config) past g u)
    (fun _ ↦ .settled (by rintro _ _ ⟨⟩) ?_)
    (fun past label t v hrun ih hstep hwithin ↦ ?_) hrun hwithin
  · have hnone : (created config).requestCount g = 0 := by
      simp only [requestCount, created, Table.get?_set, Table.get?_empty]
      split <;> rfl
    rw [hnone]
    rfl
  · have ht := (reachable_created config).run hrun
    have hbalanced := ih ((List.prefix_append _ _).trans hwithin)
    cases hchild : t.children.get? g with
    | none =>
      refine hbalanced.aside ht hrun hstep fun id post _ hpost hpartner ↦ ?_
      obtain ⟨c, hsome⟩ := ht.child_of_partner hpost hpartner
      cases hchild.symm.trans hsome
    | some c =>
      rcases leg_or_nobody_of_step hstep hchild with ⟨id, post, hown, hpost, hleg⟩ | hnobody
      · obtain ⟨post', hcallers, hentry⟩ := hleg.entry hown hchild hpost
        exact hbalanced.leg hserial hwithin hrun hstep hown hpost hcallers hentry
      · exact hbalanced.aside ht hrun hstep hnobody

end

end Sidecar.Supervisor
