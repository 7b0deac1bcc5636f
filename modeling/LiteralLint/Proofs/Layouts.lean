import LiteralLint.Proofs.LineNumbers

/-! # Layouts

  A layout is a list of lines together with the line ends that they are written
  with. A source made from its text has these lines, whatever the line ends,
  and so has everything that is computed from the source.

  The key ideas:

  - What a line must not hold, so that its end can be told from it, is excluded
    by the type of the line: a line feed anywhere, and a carriage return in the
    last place. A carriage return in any other place is a character of the
    line.
  - The text of a layout is split line by line, in the order in which it was
    put together (`splitAfter_ended`).
  - Lines are counted from 1, and a line is looked up by this number
    (`line?_eq_some_iff`).
-/

namespace LiteralLint

/-! ### Lines with Their Ends -/

/-- What a line is ended with. -/
inductive LineEnd
  | feed
  | returnFeed
  deriving DecidableEq, Repr

/-- The characters of a line end. -/
def LineEnd.chars : LineEnd → List Char
  | .feed => ['\n']
  | .returnFeed => ['\r', '\n']

/-- A line that can be told from the line end after it. -/
structure LineText where
  text : String
  noFeed : '\n' ∉ text.toList
  noReturn : text.toList.getLast? ≠ some '\r'

/-- Lines and how they are ended. -/
structure Layout where
  /-- The lines that have a line end. -/
  ended : List (LineText × LineEnd)
  /-- A line after them that has none. -/
  last? : Option LineText
  /-- It is not empty, or it would not be there. -/
  last_ne : ∀ line ∈ last?, line.text ≠ ""

namespace Layout

/-- The texts of the lines, in order. -/
def texts (layout : Layout) : List String :=
  layout.ended.map (fun line => line.1.text) ++ layout.last?.toList.map LineText.text

/-- The characters of the lines that have a line end. -/
def endedChars (ended : List (LineText × LineEnd)) : List Char :=
  ended.flatMap fun line => line.1.text.toList ++ line.2.chars

/-- The text in which the lines are written one after another. -/
def text (layout : Layout) : String :=
  String.ofList (endedChars layout.ended ++ layout.last?.toList.flatMap (·.text.toList))

end Layout

/-! ### Splitting -/

namespace Source

/-- Characters other than line feeds belong to the line that is being read. -/
theorem splitAfter_append {text : List Char} (htext : '\n' ∉ text) (line rest : List Char) :
    splitAfter #[] line (text ++ rest) = splitAfter #[] (text.reverse ++ line) rest := by
  induction text generalizing line with
  | nil => rfl
  | cons c text ih =>
    have hc : c ≠ '\n' := by
      intro heq
      exact htext (heq ▸ List.mem_cons_self)
    have htext' : '\n' ∉ text := by
      intro hin
      exact htext (List.mem_cons_of_mem _ hin)
    rw [List.cons_append, splitAfter, if_neg hc, ih htext', List.reverse_cons, List.append_assoc]
    rfl

/-- A line and its end are split off as that line, whatever the line end. -/
theorem splitAfter_line (line : LineText) (lineEnd : LineEnd) (rest : List Char) :
    (splitAfter #[] [] (line.text.toList ++ (lineEnd.chars ++ rest))).toList
      = line.text :: (splitAfter #[] [] rest).toList := by
  rw [splitAfter_append line.noFeed, List.append_nil]
  cases lineEnd with
  | feed =>
    -- Nothing is dropped, as the line does not end in a carriage return.
    have hlast : line.text.toList.reverse.head? ≠ some '\r' := by
      rw [← List.getLast?_eq_head?_reverse]
      exact line.noReturn
    show (splitAfter #[] line.text.toList.reverse ('\n' :: rest)).toList = _
    rw [splitAfter_feed, endedLine_of_head? hlast, List.reverse_reverse, String.ofList_toList]
  | returnFeed =>
    -- The carriage return is read as part of the line, and then dropped.
    show (splitAfter #[] line.text.toList.reverse ('\r' :: '\n' :: rest)).toList = _
    rw [splitAfter, if_neg (by decide), splitAfter_feed]
    show String.ofList line.text.toList.reverse.reverse :: _ = _
    rw [List.reverse_reverse, String.ofList_toList]

/-- So are any number of lines with their ends. -/
theorem splitAfter_ended (ended : List (LineText × LineEnd)) (rest : List Char) :
    (splitAfter #[] [] (Layout.endedChars ended ++ rest)).toList
      = ended.map (fun line => line.1.text) ++ (splitAfter #[] [] rest).toList := by
  induction ended with
  | nil => rfl
  | cons line ended ih =>
    have hchars : Layout.endedChars (line :: ended) ++ rest
        = line.1.text.toList ++ (line.2.chars ++ (Layout.endedChars ended ++ rest)) := by
      simp only [Layout.endedChars, List.flatMap_cons, List.append_assoc]
    rw [hchars, splitAfter_line, ih]
    rfl

/-- A line without an end is split off if it is not empty. -/
theorem splitAfter_last {line : LineText} (hne : line.text ≠ "") :
    (splitAfter #[] [] line.text.toList).toList = [line.text] := by
  have hlast := splitAfter_append line.noFeed [] []
  rw [List.append_nil, List.append_nil] at hlast
  have hsome : line.text.toList.reverse.isEmpty = false := by
    rw [List.isEmpty_reverse]
    cases htext : line.text.toList with
    | nil => exact absurd (String.toList_eq_nil_iff.1 htext) hne
    | cons c text => rfl
  rw [hlast, splitAfter, hsome]
  show [String.ofList line.text.toList.reverse.reverse] = [line.text]
  rw [List.reverse_reverse, String.ofList_toList]

/-- **The lines of a layout are the lines of its text.** -/
theorem lines_ofText_layout (layout : Layout) :
    (ofText layout.text).lines.toList = layout.texts := by
  obtain ⟨ended, last?, hlast⟩ := layout
  show (splitAfter #[] [] (String.ofList _).toList).toList = _
  rw [String.toList_ofList, splitAfter_ended]
  unfold Layout.texts
  congr 1
  cases last? with
  | none => rfl
  | some line =>
    show (splitAfter #[] [] (line.text.toList ++ [])).toList = [line.text]
    rw [List.append_nil, splitAfter_last (hlast line rfl)]

/-! ### Looking Up Lines -/

variable {source : Source} {n : Nat} {line : Line}

/-- The lines are numbered from 1 on. -/
theorem numbers_numbered (source : Source) :
    source.numbered.map Line.number = List.range' 1 source.size := by
  unfold numbered
  rw [List.map_map]
  show (source.lines.toList.zipIdx 1).map Prod.snd = _
  rw [List.zipIdx_map_snd, Array.length_toList]
  rfl

theorem texts_numbered (source : Source) :
    source.numbered.map Line.text = source.lines.toList := by
  unfold numbered
  rw [List.map_map]
  exact List.zipIdx_map_fst 1 source.lines.toList

/-- A line is where its number says. -/
theorem mem_numbered_iff : line ∈ source.numbered
    ↔ 1 ≤ line.number ∧ source.lines[line.number - 1]? = some line.text := by
  obtain ⟨number, text⟩ := line
  rw [← Array.getElem?_toList, ← List.mk_mem_zipIdx_iff_le_and_getElem?_sub]
  unfold numbered
  constructor
  · intro hmem
    obtain ⟨⟨text', number'⟩, hmem', heq⟩ := List.mem_map.1 hmem
    obtain ⟨rfl, rfl⟩ := Line.mk.inj heq
    exact hmem'
  · intro hmem
    exact List.mem_map.2 ⟨_, hmem, rfl⟩

/-- A line is found by its number. -/
theorem line?_eq_some_iff :
    source.line? n = some line ↔ line ∈ source.numbered ∧ line.number = n := by
  rw [mem_numbered_iff]
  unfold line?
  constructor
  · intro h
    split at h
    · cases h
    · next hn =>
      obtain ⟨text, htext, rfl⟩ := Option.map_eq_some_iff.1 h
      exact ⟨⟨Nat.one_le_iff_ne_zero.2 hn, htext⟩, rfl⟩
  · rintro ⟨⟨hfirst, htext⟩, rfl⟩
    rw [if_neg (by omega), htext]
    rfl

/-- A line is found by the numbers that the source has. -/
theorem isSome_line? (source : Source) (n : Nat) : (source.line? n).isSome = source.contains n := by
  unfold line? contains size
  by_cases hn : n = 0
  · subst hn
    rfl
  · -- The number of a line is one more than its place.
    have hfirst : 1 ≤ n := by omega
    rw [if_neg hn, Option.isSome_map]
    by_cases hlast : n ≤ source.lines.size
    · rw [Array.getElem?_eq_getElem (by omega)]
      simp [hfirst, hlast]
    · rw [Array.getElem?_eq_none (by omega)]
      simp [hlast]

/-- **Line ends are transparent.** Two layouts of the same lines make one
    source, the lines of which are the lines of the layouts in order; what is
    found in it, and what is reported on it, is therefore the same. The lines of
    any text are numbered from 1 on, they are looked up by these numbers, and
    none of them holds a line feed. -/
theorem line_ends_transparent {layout layout' : Layout} (h : layout.texts = layout'.texts)
    (text : String) (n : Nat) :
    (ofText layout.text).numbered.map Line.text = layout.texts
      ∧ (ofText layout.text).numbered.map Line.number = List.range' 1 layout.texts.length
      ∧ ofText layout.text = ofText layout'.text
      ∧ (ofText layout.text).literals = (ofText layout'.text).literals
      ∧ (ofText layout.text).check = (ofText layout'.text).check
      ∧ (∀ sink, (ofText layout.text).lint sink = (ofText layout'.text).lint sink)
      ∧ (ofText text).numbered.map Line.number = List.range' 1 (ofText text).size
      ∧ ((ofText text).line? n).isSome = (ofText text).contains n
      ∧ (∀ line, (ofText text).line? n = some line
          ↔ line ∈ (ofText text).numbered ∧ line.number = n)
      ∧ ∀ line ∈ (ofText text).numbered, '\n' ∉ line.text.toList := by
  have hsource : ofText layout.text = ofText layout'.text := by
    have hlines : (ofText layout.text).lines.toList = (ofText layout'.text).lines.toList := by
      rw [lines_ofText_layout, lines_ofText_layout, h]
    have harray : (ofText layout.text).lines = (ofText layout'.text).lines := Array.ext' hlines
    exact congrArg Source.mk harray
  have hsize : (ofText layout.text).size = layout.texts.length := by
    rw [← lines_ofText_layout]
    rfl
  refine ⟨?_, ?_, hsource, ?_, ?_, ?_, numbers_numbered _, isSome_line? _ n, ?_, ?_⟩
  · rw [texts_numbered, lines_ofText_layout]
  · rw [numbers_numbered, hsize]
  · rw [hsource]
  · rw [hsource]
  · intro sink
    rw [hsource]
  · intro line
    exact line?_eq_some_iff
  · intro line hline
    apply notMem_lines_ofText text line.text
    rw [← texts_numbered]
    exact List.mem_map_of_mem hline

/-- One text mixes its line ends, within a literal and before an empty line,
    and lacks the last one. The other one has bare line feeds only. -/
theorem line_ends_transparent_mixed :
    let first : LineText := ⟨"s\"\"\"$a", by decide, by decide⟩
    let empty : LineText := ⟨"", by decide, by decide⟩
    let last : LineText := ⟨"b\"\"\" \"\r\"", by decide, by decide⟩
    let mixed : Layout := ⟨[(first, .returnFeed), (empty, .feed)], some last, by simp [last]⟩
    let plain : Layout :=
      ⟨[(first, .feed), (empty, .feed), (last, .feed)], none, by simp⟩
    mixed.texts = plain.texts
      ∧ mixed.text = "s\"\"\"$a\r\n\nb\"\"\" \"\r\""
      ∧ plain.text = "s\"\"\"$a\n\nb\"\"\" \"\r\"\n"
      ∧ (ofText plain.text).literals
        = [⟨"$a\n\nb", .s, 1, .triple⟩, ⟨"\r", .bare, 3, .single⟩]
      ∧ (ofText mixed.text).literals = (ofText plain.text).literals := by
  intro first empty last mixed plain
  have htexts : mixed.texts = plain.texts := rfl
  obtain ⟨-, -, -, hliterals, -⟩ := line_ends_transparent htexts "" 0
  exact ⟨htexts, by decide, by decide, by decide +kernel, hliterals⟩

end Source

end LiteralLint
