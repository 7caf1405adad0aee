import Sidecar.Proofs.Stream.Chunking
import Sidecar.Stream.Outlet

/-!
# What comes out of an outlet

An outlet is given a stream piece by piece, and hands out its tokens one by one. Whatever the
pieces, the tokens that were taken and those that are still there are, one behind the other, the
tokens of the bytes so far (`Cut`). `Codec.tokens` says which these are, by way of `Codec.decode`,
which knows nothing of pieces.
-/

namespace Sidecar

namespace Codec

open Tokenizer (Item)

/-- How a stream reads that has not ended: as if it failed where its bytes end, so that nothing is
left over. -/
def pending : IoFault := .ofKind .wouldBlock

/-- The tokens of a stream that consists of these bytes, and has ended or may go on. -/
def tokens (codec : Codec) (limit : Nat) (hasEnded : Bool) (bytes : Bytes) : List Bytes :=
  (codec.decode limit (if hasEnded then none else some pending) bytes).filterMap Except.toOption

/-- The tokens among items that are tokens first. -/
theorem filterMap_toOption_append (new : List Bytes) (items : List Item) :
    (new.map Except.ok ++ items).filterMap Except.toOption = new ++ items.filterMap Except.toOption := by
  rw [List.filterMap_append]
  congr 1
  induction new with
  | nil => rfl
  | cons token new ih => exact congrArg (token :: ·) ih

end Codec

namespace Outlet

open Tokenizer (Item)

/-- An outlet that decodes, and has handed out all that its reader has. -/
structure Poured (o : Outlet) : Prop extends o.reader.Reading where
  decoding : o.phase = .decoding
  more : o.reader.codec.split o.reader.unread false = .ok none
  room : o.reader.unread.length < o.reader.limit

/-- The outlet after a read: its reader has a buffer of some size and received some bytes. -/
def read (o : Outlet) (size : Nat) (got : Bytes) : Outlet :=
  { o with reader := Tokenizer.receive { o.reader with start := 0, size } got }

/-- What an outlet makes of bytes that it is given. -/
inductive Takes (o : Outlet) (bytes : Bytes) (o' : Outlet) : Prop where
  /-- It hands out some tokens and goes on. -/
  | on (new : List Bytes) (hpoured : o'.Poured) (hcodec : o'.reader.codec = o.reader.codec)
      (hlimit : o'.reader.limit = o.reader.limit) (hqueue : o'.queue = o.queue ++ new)
      (hitems : ∀ ending later,
        o.reader.codec.decode o.reader.limit ending (o.reader.unread ++ bytes ++ later) =
          new.map .ok ++
            o.reader.codec.decode o.reader.limit ending (o'.reader.unread ++ later))
  /-- It hands out some tokens and fails. -/
  | off (new : List Bytes) (failure : Failure) (hphase : o'.phase = .stopped)
      (hfinished : o'.reader.finished = true) (hqueue : o'.queue = o.queue ++ new)
      (hitems : ∀ ending later,
        o.reader.codec.decode o.reader.limit ending (o.reader.unread ++ bytes ++ later) =
          new.map .ok ++ [.error failure])

/-- An outlet whose stream has brought these bytes, and has ended or not, and from which these
tokens were taken. -/
structure Cut (codec : Codec) (limit : Nat) (hasEnded : Bool) (bytes : Bytes) (taken : List Bytes)
    (o : Outlet) : Prop where
  tokens : taken ++ o.queue = codec.tokens limit hasEnded bytes
  decoding : o.phase = .decoding → hasEnded = false ∧ o.Poured ∧ o.reader.codec = codec ∧
    o.reader.limit = limit ∧ ∀ ending later, codec.decode limit ending (bytes ++ later) =
      (taken ++ o.queue).map .ok ++ codec.decode limit ending (o.reader.unread ++ later)

section

variable {o o' o'' : Outlet} {bytes : Bytes}

/-! ## Pouring -/

/-- An outlet that hands out a token takes what it takes after that. -/
private theorem Takes.of_token {n : Nat} {token : Bytes}
    (hlimit : o.reader.unread.length ≤ o.reader.limit)
    (hsplit : o.reader.codec.split o.reader.unread false = .ok (some (n, token)))
    (hrest : Takes { o with
      reader := { o.reader with start := o.reader.start + n, unread := o.reader.unread.drop n }
      queue := o.queue ++ [token] } [] o') : Takes o [] o' := by
  cases hrest with
  | on new hpoured hcodec hlimit' hqueue hitems =>
    refine .on (token :: new) hpoured hcodec hlimit' ?_ fun ending later ↦ ?_
    · rw [hqueue, List.append_assoc]
      rfl
    · have hlater := hitems ending later
      simp only [List.append_nil] at hlater ⊢
      rw [Codec.decode_append_of_token hlimit hsplit, hlater]
      rfl
  | off new failure hphase hfinished hqueue hitems =>
    refine .off (token :: new) failure hphase hfinished ?_ fun ending later ↦ ?_
    · rw [hqueue, List.append_assoc]
      rfl
    · have hlater := hitems ending later
      simp only [List.append_nil] at hlater ⊢
      rw [Codec.decode_append_of_token hlimit hsplit, hlater]
      rfl

/-- An outlet that can decode pours until its reader wants bytes, or fails. -/
theorem takes_pour {fuel : Nat} (hreading : o.reader.Reading) (hphase : o.phase = .decoding)
    (hfuel : o.reader.unread.length < fuel) : Takes o [] (o.pour fuel) := by
  induction fuel generalizing o with
  | zero => exact absurd hfuel (Nat.not_lt_zero _)
  | succ fuel ih =>
    have hwithin := hreading.within
    have hbounded := hreading.bounded
    have hlimit : o.reader.unread.length ≤ o.reader.limit := by omega
    cases hreading.polls with
    | @token n token hsplit hpoll =>
      have hn := Codec.split_consumes hsplit
      have hnext : ({ o.reader with
          start := o.reader.start + n, unread := o.reader.unread.drop n } : Tokenizer).Reading := by
        refine ⟨⟨?_, hbounded, hreading.positive⟩, hreading.unfinished, hreading.ongoing⟩
        simp only [List.length_drop]
        omega
      simp only [pour, hpoll]
      refine .of_token hlimit hsplit (ih hnext hphase ?_)
      simp only [List.length_drop]
      omega
    | @fault fault hsplit hpoll =>
      simp only [pour, hpoll]
      refine .off [] (.framing fault) rfl rfl (List.append_nil _).symm
        fun ending later ↦ ?_
      rw [List.append_nil, Codec.decode_append_of_fault hlimit hsplit]
      rfl
    | full hsplit hfull hpoll =>
      simp only [pour, hpoll]
      refine .off [] (.framing (.tokenTooLong o.reader.limit)) rfl rfl
        (List.append_nil _).symm fun ending later ↦ ?_
      rw [List.append_nil, Codec.decode_append_of_full hfull hsplit]
      rfl
    | @wants size hsplit hroom hsize hpoll =>
      simp only [pour, hpoll]
      refine .on [] ⟨⟨⟨?_, hsize, hreading.positive⟩, hreading.unfinished,
        hreading.ongoing⟩, hphase, hsplit, Nat.lt_of_lt_of_le hroom hsize⟩ rfl rfl
        (List.append_nil _).symm fun ending later ↦ ?_
      · dsimp only
        omega
      · rw [List.append_nil]
        rfl

/-! ## Feeding -/

/-- What is taken in two goes is taken. -/
private theorem Takes.trans (more : Bytes) (hfirst : Takes o bytes o')
    (hthen : o'.Poured → Takes o' more o'')
    (hover : o'.reader.finished = true → o'.phase = .stopped → o'' = o') :
    Takes o (bytes ++ more) o'' := by
  cases hfirst with
  | on new hpoured hcodec hlimit hqueue hitems =>
    have hassoc : ∀ later, o.reader.unread ++ (bytes ++ more) ++ later =
        o.reader.unread ++ bytes ++ (more ++ later) := by simp
    cases hthen hpoured with
    | on new' hpoured' hcodec' hlimit' hqueue' hitems' =>
      refine .on (new ++ new') hpoured' (hcodec'.trans hcodec) (hlimit'.trans hlimit) ?_
        fun ending later ↦ ?_
      · rw [hqueue', hqueue, List.append_assoc]
      · have hlater := hitems' ending later
        rw [hcodec, hlimit, List.append_assoc] at hlater
        rw [hassoc, hitems, hlater, List.map_append, List.append_assoc]
    | off new' failure hphase hfinished hqueue' hitems' =>
      refine .off (new ++ new') failure hphase hfinished ?_
        fun ending later ↦ ?_
      · rw [hqueue', hqueue, List.append_assoc]
      · have hlater := hitems' ending later
        rw [hcodec, hlimit, List.append_assoc] at hlater
        rw [hassoc, hitems, hlater, List.map_append, List.append_assoc]
  | off new failure hphase hfinished hqueue hitems =>
    obtain rfl := hover hfinished hphase
    refine .off new failure hphase hfinished hqueue fun ending later ↦ ?_
    have hlater := hitems ending (more ++ later)
    simpa using hlater

/-- An outlet whose reader is finished takes nothing. -/
theorem feed_of_finished (hfinished : o.reader.finished = true) (hphase : o.phase = .stopped)
    (bytes : Bytes) : o.feed bytes = o := by
  have hpour : o.pour o.room = o := by
    obtain ⟨reader, queue, phase⟩ := o
    cases hphase
    simp only [room, pour, Tokenizer.poll, if_pos hfinished]
  rw [feed.eq_def]
  simp [hpour, hphase]

/-- A reader that wants bytes takes as many as it offered room for. -/
theorem reading_receive {r : Tokenizer} {size : Nat} {got : Bytes} (hreading : r.Reading)
    (hsize : size ≤ r.limit) (hgot : got ≠ []) (hfit : r.unread.length + got.length ≤ size) :
    (Tokenizer.receive { r with start := 0, size } got).Reading := by
  refine ⟨⟨?_, hsize, hreading.positive⟩, hreading.unfinished, ?_⟩
  · simp only [Tokenizer.receive, List.length_append]
    omega
  · exact List.isEmpty_eq_false_iff.mpr hgot

/-- An outlet that has handed out all that it can wants bytes. -/
private theorem Poured.wants (hpoured : o.Poured) : ∃ size,
    o.reader.unread.length < size ∧ size ≤ o.reader.limit ∧
      o.reader.poll = (.wants (size - o.reader.unread.length),
        { o.reader with start := 0, size }) := by
  have hmore := hpoured.more
  cases hpoured.toReading.polls with
  | token hsplit _ =>
    rw [hmore] at hsplit
    cases hsplit
  | fault hsplit _ =>
    rw [hmore] at hsplit
    cases hsplit
  | full _ hfull _ => exact absurd hfull (Nat.ne_of_lt hpoured.room)
  | @wants size _ hroom hsize hpoll => exact ⟨size, hroom, hsize, hpoll⟩

/-- One read of an outlet: its reader receives what fits the room that it offered. -/
private theorem takes_read {size : Nat} {got : Bytes} (hpoured : o.Poured)
    (hsize : size ≤ o.reader.limit) (hgot : got ≠ [])
    (hfit : o.reader.unread.length + got.length ≤ size) :
    Takes o got ((o.read size got).pour (o.read size got).room) := by
  have hreading := reading_receive hpoured.toReading hsize hgot hfit
  have hpour := takes_pour (o := o.read size got) hreading hpoured.decoding
    (Nat.lt_add_of_pos_right Nat.two_pos)
  cases hpour with
  | on new hpoured' hcodec hlimit hqueue hitems =>
    refine .on new hpoured' hcodec hlimit hqueue fun ending later ↦ ?_
    have hlater := hitems ending later
    rwa [List.append_nil] at hlater
  | off new failure hphase hfinished hqueue hitems =>
    refine .off new failure hphase hfinished hqueue fun ending later ↦ ?_
    have hlater := hitems ending later
    rwa [List.append_nil] at hlater

/-- An outlet that has handed out all that it can takes the bytes that it is fed. -/
theorem takes_feed {o : Outlet} (hpoured : o.Poured) (bytes : Bytes) : Takes o bytes (o.feed bytes) := by
  have hfirst : Takes o [] (o.pour o.room) :=
    takes_pour hpoured.toReading hpoured.decoding (Nat.lt_add_of_pos_right Nat.two_pos)
  refine hfirst.trans bytes (fun hpoured' ↦ ?_) fun hfinished hphase ↦ ?_
  · -- The rest is about the outlet as it stands after the first pour.
    rw [feed.eq_def]
    generalize o.pour o.room = p at hpoured' ⊢
    dsimp only
    rw [if_neg (not_not_intro hpoured'.decoding)]
    obtain ⟨size, hroom, hsize, hpoll⟩ := hpoured'.wants
    cases bytes with
    | nil =>
      exact .on [] hpoured' rfl rfl (List.append_nil _).symm fun ending later ↦ by simp
    | cons b rest =>
      simp only [hpoll]
      generalize hn : max (size - p.reader.unread.length) 1 = n
      have hpositive : 0 < n := by omega
      have hfit : p.reader.unread.length + ((b :: rest).take n).length ≤ size := by
        rw [List.length_take]
        omega
      have hgot : (b :: rest).take n ≠ [] := by
        rw [← List.length_pos_iff, List.length_take, List.length_cons]
        omega
      have hread := takes_read hpoured' hsize hgot hfit
      have hall := hread.trans ((b :: rest).drop n)
        (fun hnext ↦ takes_feed hnext ((b :: rest).drop n))
        (fun hfinished hphase ↦ feed_of_finished hfinished hphase _)
      rw [List.take_append_drop] at hall
      exact hall
  · rw [feed.eq_def]
    simp [hphase]
termination_by bytes.length
decreasing_by
  simp only [List.length_drop, List.length_cons]
  omega

/-! ## The end of a stream -/

/-- Where the bytes do not fill the buffer, a stream that may go on has no token in them. -/
private theorem Poured.tokens_eq (hpoured : o.Poured) :
    (o.reader.codec.decode o.reader.limit (some Codec.pending) o.reader.unread).filterMap
      Except.toOption = [] := by
  rw [Codec.decode_of_room hpoured.room hpoured.more, Codec.conclude,
    if_neg (Nat.not_le_of_lt hpoured.room)]
  rfl

/-- At the end of its stream an outlet hands out what is left over. -/
theorem close_of_poured (hpoured : o.Poured) : o.close.phase = .stopped ∧
    ∃ new, o.close.queue = o.queue ++ new ∧
      (o.reader.codec.decode o.reader.limit none o.reader.unread).filterMap Except.toOption =
        new := by
  have hroom := Nat.not_le_of_lt hpoured.room
  have hunfinished := hpoured.unfinished
  rw [Codec.decode_of_room hpoured.room hpoured.more, Codec.conclude, if_neg hroom, close,
    if_neg (not_not_intro hpoured.decoding)]
  refine ⟨rfl, ?_⟩
  generalize hr : o.reader.receive [] = r
  have hsplit : r.splitUnread = o.reader.codec.split o.reader.unread true := by
    rw [Tokenizer.splitUnread_eq, ← hr]
    simp [Tokenizer.receive]
  have hopen : r.finished = false := by rw [← hr]; exact hunfinished
  have hend : r.atEnd = true := by rw [← hr]; rfl
  cases hs : o.reader.codec.split o.reader.unread true with
  | error fault => exact absurd hs (Codec.split_end_ne_error _ _ fault)
  | ok found =>
    cases found with
    | none =>
      refine ⟨[], ?_, rfl⟩
      simp [room, pour, Tokenizer.poll, hsplit, hs, hopen, hend]
    | some found =>
      obtain ⟨n, token⟩ := found
      have hn := Codec.split_end_takes_all hpoured.more hs
      have hempty : r.unread.drop n = [] := by
        rw [← hr, hn]
        simp [Tokenizer.receive]
      refine ⟨[token], ?_, rfl⟩
      simp [room, pour, Tokenizer.poll, hsplit, hs, hopen, hend, hempty, Tokenizer.splitUnread_eq,
        Codec.split_nil]

/-! ## The tokens of an outlet -/

variable {codec : Codec} {limit : Nat} {hasEnded : Bool} {taken : List Bytes}

/-- Nothing comes out of a new outlet. -/
theorem cut_fresh (codec : Codec) (maxBuffer : Nat) :
    Cut codec (max maxBuffer 1) false [] [] (fresh codec maxBuffer) := by
  have hreading := Tokenizer.reading_fresh codec maxBuffer
  have hpoured : (fresh codec maxBuffer).Poured :=
    ⟨hreading, rfl, Codec.split_nil codec false, hreading.positive⟩
  exact ⟨hpoured.tokens_eq.symm, fun _ ↦ ⟨rfl, hpoured, rfl, rfl, fun _ _ ↦ rfl⟩⟩

/-- Bytes that an outlet is fed are cut into their tokens. -/
theorem Cut.feed (hcut : Cut codec limit hasEnded bytes taken o) (hphase : o.phase = .decoding)
    (more : Bytes) : Cut codec limit hasEnded (bytes ++ more) taken (o.feed more) := by
  obtain ⟨rfl, hpoured, rfl, rfl, hbefore⟩ := hcut.decoding hphase
  cases takes_feed hpoured more with
  | on new hpoured' hcodec hlimit hqueue hitems =>
    have hafter : ∀ ending later, o.reader.codec.decode o.reader.limit ending
        (bytes ++ more ++ later) = (taken ++ (o.feed more).queue).map .ok ++
          o.reader.codec.decode o.reader.limit ending ((o.feed more).reader.unread ++ later) := by
      intro ending later
      rw [List.append_assoc, hbefore, ← List.append_assoc, hitems, hqueue, ← List.append_assoc,
        ← List.append_assoc, ← List.map_append]
    refine ⟨?_, fun _ ↦ ⟨rfl, hpoured', hcodec, hlimit, hafter⟩⟩
    have hsofar := hafter (some Codec.pending) []
    have hnone := hpoured'.tokens_eq
    rw [List.append_nil, List.append_nil] at hsofar
    rw [hcodec, hlimit] at hnone
    rw [Codec.tokens, if_neg Bool.false_ne_true, hsofar, Codec.filterMap_toOption_append, hnone,
      List.append_nil]
  | off new failure hphase' _ hqueue hitems =>
    refine ⟨?_, fun hdecoding ↦ ?_⟩
    · have hsofar := hitems (some Codec.pending) []
      have hall := hbefore (some Codec.pending) more
      rw [List.append_nil] at hsofar
      rw [Codec.tokens, if_neg Bool.false_ne_true, hall, hsofar, Codec.filterMap_toOption_append,
        Codec.filterMap_toOption_append, hqueue, List.append_assoc]
      exact congrArg _ (congrArg _ (List.append_nil new).symm)
    · rw [hphase'] at hdecoding
      cases hdecoding

/-- At the end of a stream what is left over is cut off. -/
theorem Cut.close (hcut : Cut codec limit hasEnded bytes taken o) (hphase : o.phase = .decoding) :
    Cut codec limit true bytes taken o.close := by
  obtain ⟨rfl, hpoured, rfl, rfl, hbefore⟩ := hcut.decoding hphase
  obtain ⟨hphase', new, hqueue, hnew⟩ := close_of_poured hpoured
  refine ⟨?_, fun hdecoding ↦ ?_⟩
  · have hall := hbefore none []
    rw [List.append_nil, List.append_nil] at hall
    rw [Codec.tokens, if_pos rfl, hall, Codec.filterMap_toOption_append, hnew, hqueue,
      List.append_assoc]
  · rw [hphase'] at hdecoding
    cases hdecoding

/-- The oldest token goes from those that are there to those that were taken. -/
theorem Cut.take {token : Bytes} {rest : List Bytes}
    (hcut : Cut codec limit hasEnded bytes taken o) (hqueue : o.queue = token :: rest) :
    Cut codec limit hasEnded bytes (taken ++ [token]) { o with queue := rest } := by
  have hsame : taken ++ [token] ++ rest = taken ++ o.queue := by rw [hqueue]; simp
  refine ⟨hsame.trans hcut.tokens, fun hphase ↦ ?_⟩
  obtain ⟨hopen, hpoured, hcodec, hlimit, hitems⟩ := hcut.decoding hphase
  refine ⟨hopen, ⟨hpoured.toReading, hpoured.decoding, hpoured.more, hpoured.room⟩, hcodec,
    hlimit, fun ending later ↦ ?_⟩
  rw [hsame]
  exact hitems ending later

/-- An outlet that does not decode any more keeps its tokens. -/
theorem Cut.advance {phase : Phase} (hcut : Cut codec limit hasEnded bytes taken o)
    (hphase : phase ≠ .decoding) :
    Cut codec limit hasEnded bytes taken { o with phase } :=
  ⟨hcut.tokens, fun hdecoding ↦ absurd hdecoding hphase⟩

end

end Outlet

end Sidecar
