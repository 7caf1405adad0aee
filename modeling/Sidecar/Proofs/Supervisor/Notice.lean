import Sidecar.Proofs.Supervisor.Tenure

/-!
# A request for shutdown on its way

A request for shutdown is made by one caller, waits in the channel, and is taken by the warden,
which leaves its loop with it. As soon as shutdown was requested, exactly one of these three has the
request, and it is never lost (`Asked.step`). So the channel is empty when the caller tells the
warden, and when it has told it the request waits or has been taken (`conveyance_of_run`).
-/

namespace Sidecar.Supervisor

/-- Whether a thread with this duty has requested shutdown and has not told the warden yet. -/
def Duty.isRequest : Duty → Bool
  | .announce => true
  | .notify => true
  | _ => false

/-- Who can have a request for shutdown. -/
inductive Carrier where
  /-- The caller that made it, until it has told the warden. -/
  | caller (id : CallerId)
  /-- The channel, in which it waits for the warden. -/
  | channel
  /-- The warden, which has taken it and left its loop. -/
  | warden
  deriving DecidableEq

/-- Whether someone has a request for shutdown. -/
def carries (s : Supervisor) : Carrier → Bool
  | .caller id => (s.duty? (.caller id)).any Duty.isRequest
  | .channel => s.closeNotice
  | .warden => s.warden.hasLeft

/-- A caller that looks whether shutdown was requested, to request it, and what it finds. -/
def lookup? (s : Supervisor) : Label → Option (CallerId × Bool)
  | .proceed id => if s.callers.get? id = some .closing then some (id, s.isClosed) else none
  | _ => none

/-- A caller tells the warden that shutdown was requested. -/
structure Telling where
  id : CallerId
  /-- Whether a request still waits in the channel. -/
  isFull : Bool
  /-- Whether the warden has left its loop and will take no request. -/
  isLate : Bool
  deriving DecidableEq

/-- The caller that tells the warden by a label, if one does. -/
def telling? (s : Supervisor) : Label → Option Telling
  | .proceed id =>
    if s.callers.get? id = some .notifying then some ⟨id, s.closeNotice, s.warden.hasLeft⟩ else none
  | _ => none

/-- All looks of callers that request shutdown in the course of a run, one after the other. -/
def lookups (s : Supervisor) (labels : List Label) : List (CallerId × Bool) :=
  s.seen (fun u label _ ↦ u.lookup? label) labels

/-- What the warden is told in the course of a run, one after the other. -/
def tellings (s : Supervisor) (labels : List Label) : List Telling :=
  s.seen (fun u label _ ↦ u.telling? label) labels

/-- What a step does to the request for shutdown. -/
inductive Handling (s : Supervisor) : Label → Supervisor → Prop where
  /-- Nothing. -/
  | aside {label : Label} {t : Supervisor} (hlookup : s.lookup? label = none)
      (htelling : s.telling? label = none) (hlabel : label ≠ .closeNoticed)
      (hclosed : t.isClosed = s.isClosed) (hcarries : ∀ k, t.carries k = s.carries k) :
      Handling s label t
  /-- A caller requests shutdown after another one. -/
  | repeated {id : CallerId} (hpost : s.callers.get? id = some .closing)
      (hclosed : s.isClosed = true) : Handling s (.proceed id) (s.finish id .ok)
  /-- A caller is the first to request shutdown. -/
  | made {id : CallerId} (hpost : s.callers.get? id = some .closing) (hopen : s.isClosed = false) :
      Handling s (.proceed id) ({ s with isClosed := true }.place id .announcing)
  /-- The caller tells the warden. -/
  | told {id : CallerId} (hpost : s.callers.get? id = some .notifying) :
      Handling s (.proceed id) ({ s with closeNotice := true }.finish id .ok)
  /-- The warden takes the request and leaves its loop. -/
  | taken (hnotice : s.closeNotice = true) (hduty : s.warden.duty? = none)
      (hleft : s.warden.hasLeft = false) :
      Handling s .closeNoticed { s with closeNotice := false, warden := .closing }

section

variable {s t u : Supervisor} {label : Label} {labels : List Label} {id : CallerId} {k : Carrier}
  {h : Holder} {before duty : Option Duty}

/-! ## What a step does to the request -/

/-- A thread that takes a duty, and with it no request that it had not, leaves all requests where
they are. -/
private theorem carries_of_shift (hshift : Shift s.callers s.warden h duty t.callers t.warden)
    (hduty : s.duty? h = before) (hsame : duty.any Duty.isRequest = before.any Duty.isRequest)
    (hnotice : t.closeNotice = s.closeNotice) (k : Carrier) : t.carries k = s.carries k := by
  cases k with
  | channel => exact hnotice
  | warden => exact hshift.hasLeft
  | caller id =>
    have hduties : t.duty? (.caller id) = if .caller id = h then duty else s.duty? (.caller id) :=
      hshift.duties (.caller id)
    rw [carries, carries, hduties]
    split
    · next heq => rw [heq, hduty, hsame]
    · rfl

/-- A move by which no caller requests shutdown first or tells the warden, and by which the warden
does not take the request, leaves it where it is. -/
theorem carries_of_move (hmove : Move s label t) (hclosed : t.isClosed = s.isClosed)
    (htold : ∀ id, label = .proceed id → s.duty? (.caller id) ≠ some .notify)
    (hlabel : label ≠ .closeNoticed) (k : Carrier) : t.carries k = s.carries k := by
  cases hmove with
  | talk hduties _ _ =>
    cases k with
    | caller id => exact congrArg (Option.any Duty.isRequest) (hduties (.caller id))
    | channel => rfl
    | warden => rfl
  | patrol _ _ hleft _ =>
    cases k with
    | warden => exact hleft
    | _ => rfl
  | locked _ _ _ hduty hshift => exact carries_of_shift hshift hduty (by rfl) (by rfl) k
  | refused hduty hshift => exact carries_of_shift hshift hduty (by rfl) (by rfl) k
  | uncaptured hduty hshift => exact carries_of_shift hshift hduty (by rfl) (by rfl) k
  | launched hduty hshift => exact carries_of_shift hshift hduty (by rfl) (by rfl) k
  | unequipped hduty hshift => exact carries_of_shift hshift hduty (by rfl) (by rfl) k
  | equipped hduty hshift => exact carries_of_shift hshift hduty (by rfl) (by rfl) k
  | discarded hduty hshift => exact carries_of_shift hshift hduty (by rfl) (by rfl) k
  | scrapped hduty hshift => exact carries_of_shift hshift hduty (by rfl) (by rfl) k
  | taken _ _ hduty hshift => exact carries_of_shift hshift hduty (by rfl) (by rfl) k
  | reaped hduty hshift => exact carries_of_shift hshift hduty (by rfl) (by rfl) k
  | requested hopen _ _ =>
    rw [hopen] at hclosed
    cases hclosed
  | announced _ hduty hshift => exact carries_of_shift hshift hduty (by rfl) (by rfl) k
  | notified hduty _ => exact absurd hduty (htold _ rfl)
  | left _ _ => exact absurd rfl hlabel
  | counted hwarden =>
    cases k with
    | warden => rw [carries, carries, hwarden]; rfl
    | _ => rfl
  | marked _ hwarden =>
    cases k with
    | warden => rw [carries, carries, hwarden]; rfl
    | _ => rfl
  | cleared _ _ hwarden _ hleft =>
    cases k with
    | warden => rw [carries, carries, hwarden]; exact hleft
    | _ => rfl

/-- A caller that looks whether shutdown was requested is about to request it. -/
theorem closing_of_lookup? {look : CallerId × Bool} (hlook : s.lookup? label = some look) :
    label = .proceed look.1 ∧ s.callers.get? look.1 = some .closing ∧ look.2 = s.isClosed := by
  cases label with
  | proceed id =>
    simp only [lookup?] at hlook
    split at hlook
    · next hpost =>
      cases hlook
      exact ⟨rfl, hpost, rfl⟩
    · cases hlook
  | _ => cases hlook

/-- A caller that tells the warden is about to. -/
theorem notifying_of_telling? {telling : Telling} (htelling : s.telling? label = some telling) :
    label = .proceed telling.id ∧ s.callers.get? telling.id = some .notifying := by
  cases label with
  | proceed id =>
    simp only [telling?] at htelling
    split at htelling
    · next hpost =>
      cases htelling
      exact ⟨rfl, hpost⟩
    · cases htelling
  | _ => cases htelling

/-- A caller that has to tell the warden is about to. -/
private theorem caller_of_notify (hduty : s.duty? (.caller id) = some .notify) :
    s.callers.get? id = some .notifying := by
  obtain ⟨c, hpost, hcaller⟩ := Option.bind_eq_some_iff.mp hduty
  rw [hpost]
  cases c with
  | notifying => rfl
  | starting start => cases start <;> cases hcaller
  | _ => cases hcaller

/-- A caller that goes on and is not about to request shutdown does not request it. -/
private theorem isClosed_of_proceed {c : Caller} (hpost : c ≠ .closing)
    (hproceed : s.proceedCaller id c = some t) : t.isClosed = s.isClosed := by
  unfold proceedCaller at hproceed
  split at hproceed
  case h_1 =>
    split at hproceed
    · cases hproceed
    · split at hproceed <;> cases hproceed
      · next result _ => cases result <;> rfl
      · next hbegin =>
        obtain rfl := eq_of_beginStart hbegin
        rfl
  case h_2 =>
    obtain ⟨⟨failure, u⟩, habandon, rfl⟩ := Option.map_eq_some_iff.mp hproceed
    obtain ⟨_, _, rfl⟩ := eq_of_abandon habandon
    rfl
  all_goals
    repeat' split at hproceed
    all_goals first
      | cases hproceed; done
      | cases hproceed; rfl
      | exact absurd rfl hpost

private theorem isClosed_of_step (hstep : s.step label = some t)
    (hlookup : s.lookup? label = none) : t.isClosed = s.isClosed := by
  cases move_of_step hstep with
  | @requested id _ _ _ _ _ =>
    obtain ⟨c, hpost, hproceed⟩ := Option.bind_eq_some_iff.mp hstep
    refine isClosed_of_proceed ?_ hproceed
    rintro rfl
    rw [lookup?, if_pos hpost] at hlookup
    cases hlookup
  | _ => rfl

/-- What a step does to the request for shutdown. -/
theorem handling_of_step (hstep : s.step label = some t) : Handling s label t := by
  cases hlook : s.lookup? label with
  | some look =>
    obtain ⟨rfl, hpost, -⟩ := closing_of_lookup? hlook
    simp only [step, hpost, Option.bind_some, proceedCaller] at hstep
    split at hstep
    · next hclosed =>
      cases hstep
      exact .repeated hpost hclosed
    · next hopen =>
      cases hstep
      exact .made hpost (Bool.eq_false_iff.mpr hopen)
  | none =>
    cases htelling : s.telling? label with
    | some telling =>
      obtain ⟨rfl, hpost⟩ := notifying_of_telling? htelling
      rw [step, hpost] at hstep
      cases hstep
      exact .told hpost
    | none =>
      by_cases hlabel : label = .closeNoticed
      · subst hlabel
        simp only [step, noticeClose] at hstep
        split at hstep
        · next hpost =>
          split at hstep <;> cases hstep
          next hnotice => exact .taken hnotice (by rw [hpost]; rfl) (by rw [hpost]; rfl)
        · next hpost =>
          split at hstep <;> cases hstep
          next hnotice => exact .taken hnotice (by rw [hpost]; rfl) (by rw [hpost]; rfl)
        · cases hstep
      · have hclosed := isClosed_of_step hstep hlook
        refine .aside hlook htelling hlabel hclosed ?_
        refine carries_of_move (move_of_step hstep) hclosed ?_ hlabel
        rintro id rfl hduty
        rw [telling?, if_pos (caller_of_notify hduty)] at htelling
        cases htelling

/-! ## How far the request has come -/

/-- Nobody has requested shutdown in the course of a run. -/
structure Unasked (s : Supervisor) (labels : List Label) (t : Supervisor) : Prop where
  notClosed : t.isClosed = false
  lookups : s.lookups labels = []
  tellings : s.tellings labels = []
  taken : labels.count .closeNoticed = 0
  nobody : ∀ k, t.carries k = false

/-- A caller was the first to request shutdown in the course of a run, and someone has its
request. -/
structure Asked (s : Supervisor) (labels : List Label) (t : Supervisor) (id : CallerId)
    (k : Carrier) : Prop where
  closed : t.isClosed = true
  /-- All who have looked later have found that shutdown was requested. -/
  lookups : ∃ later, s.lookups labels = (id, false) :: later ∧ ∀ look ∈ later, look.2 = true
  carrier : ∀ k', t.carries k' = true ↔ k' = k
  own : ∀ id', k = .caller id' → id' = id
  /-- Only the caller tells the warden, and the channel is empty then. -/
  tellings : s.tellings labels = if k = .caller id then [] else [⟨id, false, false⟩]
  taken : labels.count .closeNoticed = if k = .warden then 1 else 0

/-- A caller that goes somewhere has a request there or not, and the others keep what they have. -/
theorem carries_place (s : Supervisor) (id : CallerId) (c : Caller) (k : Carrier) :
    (s.place id c).carries k =
      if k = .caller id then c.duty?.any Duty.isRequest else s.carries k := by
  cases k with
  | channel => rfl
  | warden => rfl
  | caller id' =>
    have hduties := (shift_caller s.callers s.warden id c).duties (.caller id')
    have hafter : (s.place id c).carries (.caller id') =
        (dutyAmong? (s.callers.set id c) s.warden (.caller id')).any Duty.isRequest := rfl
    rw [hafter, hduties, carries, duty?]
    simp only [Holder.caller.injEq, Carrier.caller.injEq]
    split <;> rfl

/-- Whether a caller has a request, by where it stands. -/
private theorem carries_of_post {c : Caller} (hpost : s.callers.get? id = some c) :
    s.carries (.caller id) = c.duty?.any Duty.isRequest := by
  rw [carries, duty?, dutyAmong?, hpost]
  rfl

private theorem lookups_concat (hrun : s.run labels = some t) (hstep : t.step label = some u) :
    s.lookups (labels ++ [label]) = s.lookups labels ++ (t.lookup? label).toList :=
  seen_concat hrun hstep

private theorem tellings_concat (hrun : s.run labels = some t) (hstep : t.step label = some u) :
    s.tellings (labels ++ [label]) = s.tellings labels ++ (t.telling? label).toList :=
  seen_concat hrun hstep

private theorem lookup?_of_closing (hpost : s.callers.get? id = some .closing) :
    s.lookup? (.proceed id) = some (id, s.isClosed) ∧ s.telling? (.proceed id) = none := by
  rw [lookup?, telling?, hpost]
  exact ⟨rfl, rfl⟩

private theorem telling?_of_notifying (hpost : s.callers.get? id = some .notifying) :
    s.lookup? (.proceed id) = none ∧
      s.telling? (.proceed id) = some ⟨id, s.closeNotice, s.warden.hasLeft⟩ := by
  rw [lookup?, telling?, hpost]
  exact ⟨rfl, rfl⟩

/-- As long as shutdown is not requested, or when it is requested first, nothing else becomes of a
request. -/
theorem Unasked.step (h : Unasked s labels t) (hrun : s.run labels = some t)
    (hstep : t.step label = some u) :
    Unasked s (labels ++ [label]) u ∨ ∃ id, Asked s (labels ++ [label]) u id (.caller id) := by
  have hlookups := lookups_concat hrun hstep
  have htellings := tellings_concat hrun hstep
  rw [h.lookups] at hlookups
  rw [h.tellings] at htellings
  cases handling_of_step hstep with
  | aside hlook htelling hlabel hclosed hcarries =>
    rw [hlook] at hlookups
    rw [htelling] at htellings
    refine .inl ⟨hclosed.trans h.notClosed, hlookups, htellings, ?_, ?_⟩
    · rw [List.count_append, h.taken, List.count_singleton]
      simpa using hlabel
    · intro k
      rw [hcarries, h.nobody]
  | repeated hpost hclosed =>
    rw [h.notClosed] at hclosed
    cases hclosed
  | @made id hpost hopen =>
    obtain ⟨hlook, htelling⟩ := lookup?_of_closing hpost
    rw [hlook, hopen] at hlookups
    rw [htelling] at htellings
    refine .inr ⟨id, rfl, ⟨[], hlookups, by simp⟩, ?_, ?_, ?_, ?_⟩
    · intro k
      have hbefore : ({ t with isClosed := true } : Supervisor).carries k = false := h.nobody k
      rw [carries_place, hbefore]
      simp [Caller.duty?, Duty.isRequest]
    · intro id' heq
      exact (Carrier.caller.inj heq).symm
    · rw [htellings, if_pos rfl]
      rfl
    · rw [List.count_append, h.taken, if_neg (by simp)]
      rfl
  | @told id hpost =>
    have hnobody := h.nobody (.caller id)
    rw [carries_of_post hpost] at hnobody
    cases hnobody
  | taken hnotice _ _ =>
    have hnobody := h.nobody .channel
    rw [carries, hnotice] at hnobody
    cases hnobody

/-- A request that was made is passed on to the channel and to the warden, and is not lost. -/
theorem Asked.step (h : Asked s labels t id k) (hrun : s.run labels = some t)
    (hstep : t.step label = some u) : ∃ k', Asked s (labels ++ [label]) u id k' := by
  have hlookups := lookups_concat hrun hstep
  have htellings := tellings_concat hrun hstep
  obtain ⟨later, hlater, hall⟩ := h.lookups
  rw [hlater] at hlookups
  rw [h.tellings] at htellings
  cases handling_of_step hstep with
  | aside hlook htelling hlabel hclosed hcarries =>
    rw [hlook] at hlookups
    rw [htelling, Option.toList_none, List.append_nil] at htellings
    refine ⟨k, hclosed.trans h.closed, ⟨later, by simpa using hlookups, hall⟩, ?_, h.own,
      htellings, ?_⟩
    · intro k'
      rw [hcarries, h.carrier]
    · rw [List.count_append, h.taken, List.count_singleton]
      simpa using hlabel
  | @repeated id' hpost hclosed =>
    obtain ⟨hlook, htelling⟩ := lookup?_of_closing hpost
    rw [hlook, hclosed] at hlookups
    rw [htelling, Option.toList_none, List.append_nil] at htellings
    refine ⟨k, hclosed, ⟨later ++ [(id', true)], hlookups, ?_⟩, ?_, h.own, htellings, ?_⟩
    · intro look hlook
      rw [List.mem_append, List.mem_singleton] at hlook
      obtain hlook | rfl := hlook
      · exact hall look hlook
      · rfl
    · -- The caller has had no request, and has none now.
      intro k'
      rw [finish, carries_place, ← h.carrier]
      split
      · next heq =>
        rw [heq, carries_of_post hpost]
        rfl
      · rfl
    · rw [List.count_append, h.taken]
      simp
  | made _ hopen =>
    rw [h.closed] at hopen
    cases hopen
  | @told id' hpost =>
    have hcaller : k = .caller id' := ((h.carrier _).mp (carries_of_post hpost)).symm
    obtain rfl : id' = id := h.own id' hcaller
    have hempty : t.closeNotice = false := by
      rw [← Bool.not_eq_true]
      intro hnotice
      cases ((h.carrier .channel).mp hnotice).trans hcaller
    have hinLoop : t.warden.hasLeft = false := by
      rw [← Bool.not_eq_true]
      intro hleft
      cases ((h.carrier .warden).mp hleft).trans hcaller
    obtain ⟨hlook, htelling⟩ := telling?_of_notifying hpost
    rw [hlook] at hlookups
    rw [htelling, hempty, hinLoop, if_pos hcaller] at htellings
    refine ⟨.channel, h.closed, ⟨later, by simpa using hlookups, hall⟩, ?_, by simp, htellings, ?_⟩
    · intro k'
      rw [finish, carries_place]
      cases k' with
      | channel => exact iff_of_true rfl rfl
      | warden => exact iff_of_false (by simpa [carries] using hinLoop) (by simp)
      | caller id' =>
        have hsame := h.carrier (.caller id')
        rw [hcaller] at hsame
        split
        · simp [Caller.duty?]
        · next hne => exact iff_of_false (fun hcarries ↦ hne (hsame.mp hcarries)) (by simp)
    · rw [List.count_append, h.taken, hcaller]
      simp
  | taken hnotice hduty _ =>
    have hchannel : k = .channel := ((h.carrier .channel).mp hnotice).symm
    rw [hchannel] at htellings
    refine ⟨.warden, h.closed, ⟨later, hlookups.trans (List.append_nil _), hall⟩, ?_, by simp, ?_,
      ?_⟩
    · intro k'
      cases k' with
      | channel => exact iff_of_false (by simp [carries]) (by simp)
      | warden => exact iff_of_true rfl rfl
      | caller id' =>
        have hsame := h.carrier (.caller id')
        rw [hchannel] at hsame
        exact iff_of_false (fun hcarries ↦ by cases hsame.mp hcarries) (by simp)
    · exact htellings.trans (List.append_nil _)
    · rw [List.count_append, h.taken, hchannel]
      simp

private theorem unasked_created (config : Config) :
    Unasked (created config) [] (created config) where
  notClosed := rfl
  lookups := rfl
  tellings := rfl
  taken := rfl
  nobody k := by
    cases k with
    | caller id => rw [carries, duty?_created]; rfl
    | channel => rfl
    | warden => rfl

/-- In every run shutdown was not requested, or someone has the request. -/
theorem conveyance_of_run {config : Config} (hrun : (created config).run labels = some t) :
    Unasked (created config) labels t ∨ ∃ id k, Asked (created config) labels t id k := by
  refine run_induction (P := fun labels t ↦ Unasked (created config) labels t ∨
    ∃ id k, Asked (created config) labels t id k) (.inl (unasked_created config)) ?_ hrun
  intro labels label t u ht h hstep
  obtain h | ⟨id, k, h⟩ := h
  · obtain h | ⟨id, h⟩ := h.step ht hstep
    · exact .inl h
    · exact .inr ⟨id, .caller id, h⟩
  · obtain ⟨k', h'⟩ := h.step ht hstep
    exact .inr ⟨id, k', h'⟩

end

end Sidecar.Supervisor
