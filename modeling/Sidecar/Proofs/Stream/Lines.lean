import Sidecar.Proofs.Bytes.Segments
import Sidecar.Proofs.Codec.Copy
import Sidecar.Proofs.Stream.Truncation

/-!
# Reading lines

Whatever the bytes of a stream are, a reader of lines hands out its lines, each without one carriage
return at its end, up to the first that does not fit the buffer. A line fits when it does with its
newline; what stands behind the last newline fits only when it leaves room for one byte more, as its
end is not seen before a read finds nothing.
-/

namespace Sidecar

namespace Codec

variable {limit : Nat} {ending : Option IoFault} {lines : List Bytes} {line rest : Bytes}

/-- A line as a frame: its newline ends it, and its token is without the carriage return. -/
private def lineFrame (line : Bytes) : Frame :=
  ⟨Codec.lines.frame line, Codec.lines.returned line⟩

/-- Lines that fit come before whatever follows them. -/
theorem decode_unlines_append (hfree : ∀ line ∈ lines, Bytes.newline ∉ line)
    (hfits : ∀ line ∈ lines, line.length + 1 ≤ limit) (ending : Option IoFault) (rest : Bytes) :
    Codec.lines.decode limit ending (Bytes.unlines lines ++ rest) =
      (lines.map fun line ↦ .ok (Bytes.dropCarriageReturn line)) ++
        Codec.lines.decode limit ending rest := by
  have hread : ∀ f ∈ lines.map lineFrame, f.IsRead .lines limit := by
    intro f hf
    obtain ⟨line, hline, rfl⟩ := List.mem_map.mp hf
    refine isRead_frame (hfree line hline) ?_
    rw [frame, List.length_append]
    exact hfits line hline
  have hdecode := Frame.decode_wire_append hread ending rest
  rw [Frame.wire, Frame.payloads, List.flatMap_map, List.map_map, List.map_map] at hdecode
  exact hdecode

/-- No line is split off bytes without a newline before their end is known. -/
theorem split_of_free {data : Bytes} (hfree : Bytes.newline ∉ data) :
    Codec.lines.split data false = .ok none := by
  simp [split, splitLine, hfree]

/-- Bytes that fill the buffer without a newline are too long. -/
theorem decode_of_long (hfree : Bytes.newline ∉ rest.take limit) (hlong : limit ≤ rest.length) :
    Codec.lines.decode limit ending rest = [.error (.framing (.tokenTooLong limit))] := by
  rw [decode_of_more (split_of_free hfree)]
  unfold conclude
  exact if_pos hlong

/-- A line that does not fit with its newline is too long, whatever follows it. -/
theorem decode_unlines_of_long (hfree : Bytes.newline ∉ line) (hlong : limit < line.length + 1)
    (later : List Bytes) (rest : Bytes) :
    Codec.lines.decode limit ending (Bytes.unlines (line :: later) ++ rest) =
      [.error (.framing (.tokenTooLong limit))] := by
  have hle : limit ≤ line.length := Nat.le_of_lt_succ hlong
  have hlayout : Bytes.unlines (line :: later) ++ rest =
      line ++ (Bytes.newline :: Bytes.unlines later ++ rest) := by
    simp [Bytes.unlines]
  rw [hlayout]
  refine decode_of_long ?_ ?_
  · rw [List.take_append_of_le_length hle]
    exact fun hmem ↦ hfree (List.mem_of_mem_take hmem)
  · rw [List.length_append]
    omega

/-- At the end of a stream bytes without a newline are a line, if there are any. -/
theorem decode_of_leftover (hfree : Bytes.newline ∉ rest) (hroom : rest.length < limit) :
    Codec.lines.decode limit none rest = (Codec.lines.salvage rest).map .ok := by
  rw [decode_of_room hroom (split_of_free hfree), conclude_of_free hfree hroom]

/-- The lines of a stream that ends, when all of them fit. -/
theorem decode_lines {data : Bytes}
    (hfits : ∀ line ∈ Bytes.terminated data, line.length + 1 ≤ limit)
    (hroom : (Bytes.leftover data).length < limit) :
    Codec.lines.decode limit none data =
      (Bytes.lines data).map fun line ↦ .ok (Bytes.dropCarriageReturn line) := by
  have hfree := Bytes.newline_notMem_leftover data
  conv_lhs => rw [← Bytes.unlines_append_leftover data]
  rw [decode_unlines_append (fun _ ↦ Bytes.newline_notMem_of_mem_terminated) hfits,
    decode_of_leftover hfree hroom, salvage, Bytes.lines]
  split
  · exact List.append_nil _
  · rw [List.map_append]
    rfl

/-- The lines before the first one that does not fit with its newline. -/
theorem decode_of_long_line {data : Bytes} {before after : List Bytes}
    (hcut : Bytes.terminated data = before ++ line :: after)
    (hfits : ∀ earlier ∈ before, earlier.length + 1 ≤ limit) (hlong : limit < line.length + 1) :
    Codec.lines.decode limit ending data =
      (before.map fun earlier ↦ .ok (Bytes.dropCarriageReturn earlier)) ++
        [.error (.framing (.tokenTooLong limit))] := by
  have hfree : ∀ line' ∈ before ++ line :: after, Bytes.newline ∉ line' :=
    fun _ hmem ↦ Bytes.newline_notMem_of_mem_terminated (hcut ▸ hmem)
  have hlayout : data =
      Bytes.unlines before ++ (Bytes.unlines (line :: after) ++ Bytes.leftover data) := by
    rw [← List.append_assoc, ← Bytes.unlines_append, ← hcut, Bytes.unlines_append_leftover]
  conv_lhs => rw [hlayout]
  rw [decode_unlines_append (fun earlier hmem ↦ hfree earlier (List.mem_append_left _ hmem)) hfits,
    decode_unlines_of_long (hfree line (by simp)) hlong]

/-- All lines that a newline ends, when what stands behind them is too long. -/
theorem decode_of_long_leftover {data : Bytes}
    (hfits : ∀ line ∈ Bytes.terminated data, line.length + 1 ≤ limit)
    (hlong : limit ≤ (Bytes.leftover data).length) :
    Codec.lines.decode limit ending data =
      ((Bytes.terminated data).map fun line ↦ .ok (Bytes.dropCarriageReturn line)) ++
        [.error (.framing (.tokenTooLong limit))] := by
  have hfree : Bytes.newline ∉ (Bytes.leftover data).take limit :=
    fun hmem ↦ Bytes.newline_notMem_leftover data (List.mem_of_mem_take hmem)
  conv_lhs => rw [← Bytes.unlines_append_leftover data]
  rw [decode_unlines_append (fun _ ↦ Bytes.newline_notMem_of_mem_terminated) hfits,
    decode_of_long hfree hlong]

end Codec

namespace Tokenizer

open Bytes (terminated leftover lines dropCarriageReturn)

/-- A fresh reader of lines hands out all lines of a stream that ends, when those that a newline
ends fit the buffer with it and what stands behind them leaves room; or else the lines before the
first that is too long, and the failure that says so. After that there is nothing more. -/
theorem items_of_lines (maxBuffer : Nat) (source : Source) :
    let limit := max maxBuffer 1
    let data := source.stream
    let run := (fresh .lines maxBuffer).items source
    (source.ending = none → (∀ line ∈ terminated data, line.length + 1 ≤ limit) →
      (leftover data).length < limit →
        run.1 = (lines data).map fun line ↦ .ok (dropCarriageReturn line)) ∧
    (∀ before line after, terminated data = before ++ line :: after →
      (∀ earlier ∈ before, earlier.length + 1 ≤ limit) → limit < line.length + 1 →
        run.1 = (before.map fun earlier ↦ .ok (dropCarriageReturn earlier)) ++
          [.error (.framing (.tokenTooLong limit))]) ∧
    ((∀ line ∈ terminated data, line.length + 1 ≤ limit) → limit ≤ (leftover data).length →
      run.1 = ((terminated data).map fun line ↦ .ok (dropCarriageReturn line)) ++
        [.error (.framing (.tokenTooLong limit))]) ∧
    ∀ later : Source, (run.2.1.next later).1 = none := by
  intro limit data run
  have hitems := (reading_fresh .lines maxBuffer).items_eq source
  have hrun : run.1 = Codec.lines.decode limit source.ending data := hitems.1
  refine ⟨fun hending hfits hroom ↦ ?_, fun before line after hcut hfits hlong ↦ ?_,
    fun hfits hlong ↦ ?_, fun later ↦ ?_⟩
  · rw [hrun, hending, Codec.decode_lines hfits hroom]
  · rw [hrun, Codec.decode_of_long_line hcut hfits hlong]
  · rw [hrun, Codec.decode_of_long_leftover hfits hlong]
  · rw [next_of_finished hitems.2]

/-- A buffer of four bytes. A blank line, a carriage return within a line, one whose newline comes
with another read, a line of three bytes and one without a newline are read; a line of four bytes
and a rest of four bytes are too long. -/
theorem items_of_lines_uneven :
    let mixed := Source.ofScript (some 3) [.serve [0x0a, 0x0d, 0x61, 0x0d],
      .fail (.ofKind .interrupted), .serve [0x0a, 0x61, 0x62, 0x63, 0x0a, 0x64, 0x0d]]
    let wide := Source.ofScript none [.serve [0x61, 0x0a, 0x61, 0x62, 0x63, 0x64, 0x0a, 0x65]]
    let unended := Source.ofScript none [.serve [0x61, 0x0a, 0x61, 0x62, 0x63, 0x64]]
    ((∀ line ∈ terminated mixed.stream, line.length + 1 ≤ 4) ∧ (leftover mixed.stream).length < 4 ∧
      ((fresh .lines 4).items mixed).1 =
        [.ok [], .ok [0x0d, 0x61], .ok [0x61, 0x62, 0x63], .ok [0x64]]) ∧
    ((terminated wide.stream)[1]? = some [0x61, 0x62, 0x63, 0x64] ∧
      ((fresh .lines 4).items wide).1 = [.ok [0x61], .error (.framing (.tokenTooLong 4))]) ∧
    ((leftover unended.stream).length = 4 ∧
      ((fresh .lines 4).items unended).1 = [.ok [0x61], .error (.framing (.tokenTooLong 4))]) := by
  intro mixed wide unended
  obtain ⟨hall, -⟩ := items_of_lines 4 mixed
  obtain ⟨-, hline, -⟩ := items_of_lines 4 wide
  obtain ⟨-, -, hrest, -⟩ := items_of_lines 4 unended
  have hfits : ∀ line ∈ terminated mixed.stream, line.length + 1 ≤ 4 := by decide
  have hroom : (leftover mixed.stream).length < 4 := by decide
  have hcut : terminated wide.stream = [[0x61]] ++ [0x61, 0x62, 0x63, 0x64] :: [] := by decide
  have hfull : (leftover unended.stream).length = 4 := by decide
  refine ⟨⟨hfits, hroom, (hall (by decide) hfits hroom).trans (by decide)⟩, ⟨by rw [hcut]; rfl, ?_⟩,
    hfull, ?_⟩
  · exact hline _ _ _ hcut (by decide) (by decide)
  · exact (hrest (by decide) (Nat.le_of_eq hfull.symm)).trans (by decide)

end Tokenizer
end Sidecar
