import MdxCheck.Proofs.Document.Relocate
import MdxCheck.Proofs.Document.Segment
import MdxCheck.Proofs.Text.LineEnds

/-!
A document with a block of data before it. The block takes its lines and has no other influence:
the rest is read as a document of its own, some lines further down.
-/

namespace MdxCheck

namespace Position

def down (count : Nat) (place : Position) : Position :=
  { place with line := place.line + count }

end Position

namespace Document

/-! The parts of the lines, further down. -/

def Mode.down (count : Nat) : Mode → Mode
  | .tagged first source => .tagged (first + count) source
  | mode => mode

def Part.down (count : Nat) : Part → Part
  | .prose first lines => .prose (first + count) lines
  | .statement line source => .statement (line + count) source
  | .tagged first source tags => .tagged (first + count) source tags
  | .unterminated first source offset => .unterminated (first + count) source offset

theorem proseBefore_down (count : Nat) {number : Nat} {prose : List Text}
    (room : prose.length ≤ number) :
    proseBefore (number + count) prose = (proseBefore number prose).map (Part.down count) := by
  simp only [proseBefore]
  split
  · rfl
  · have first : number + count - prose.length = number - prose.length + count := by omega
    simp [Part.down, first]

theorem partsFrom_down (count : Nat) (lines : List Text) :
    ∀ mode depth number prose, prose.length ≤ number →
      partsFrom (mode.down count) depth (number + count) prose lines =
        (partsFrom mode depth number prose lines).map (Part.down count) := by
  induction lines with
  | nil =>
      intro mode depth number prose room
      cases mode <;> simp [partsFrom, Mode.down, proseBefore_down count room, Part.down]
  | cons line lines ih =>
      intro mode depth number prose room
      have next : number + count + 1 = number + 1 + count := by omega
      have waits : (line :: prose).length ≤ number + 1 := by simpa using room
      have fresh : ([] : List Text).length ≤ number + 1 := by simp
      cases mode with
      | plain =>
          simp only [partsFrom, Mode.down, next]
          cases fenceRun? line with
          | some run => exact ih (.fenced run) depth _ _ waits
          | none =>
              simp only
              split
              next =>
                rw [List.map_append, List.map_cons, ← proseBefore_down count room,
                  ← ih .plain depth _ _ fresh]
                rfl
              next =>
                split
                next =>
                  rw [List.map_append, ← proseBefore_down count room]
                  cases Tag.scan line with
                  | mk tags unterminated =>
                      cases unterminated with
                      | none =>
                          simp only [List.map_cons]
                          rw [← ih .plain _ _ _ fresh]
                          rfl
                      | some offset =>
                          simp only
                          rw [← ih (.tagged number line) _ _ _ fresh]
                          rfl
                next => exact ih .plain depth _ _ waits
      | fenced run =>
          simp only [partsFrom, Mode.down, next]
          split
          next => exact ih .plain depth _ _ waits
          next => exact ih (.fenced run) depth _ _ waits
      | tagged first source =>
          simp only [partsFrom, Mode.down, next]
          cases Tag.scan (source ++ '\n' :: line) with
          | mk tags unterminated =>
              cases unterminated with
              | none =>
                  simp only [List.map_cons]
                  rw [← ih .plain _ _ _ fresh]
                  rfl
              | some offset => exact ih (.tagged first (source ++ '\n' :: line)) depth _ _ fresh

/-! What these parts add. -/

theorem linePosition_down (count first : Nat) (lines : List Text) (number : Nat) :
    linePosition (first + count) lines number = (linePosition first lines number).down count := by
  simp only [linePosition, Position.down, Position.mk.injEq, and_true]
  omega

theorem proseNodes_down (count first : Nat) (lines : List Text) :
    proseNodes (first + count) lines =
      Node.relocateAll (Position.down count) (proseNodes first lines) :=
  proseNodes_relocate _ rfl rfl fun number _ => linePosition_down count first lines number

namespace Builder

theorem sourcePosition_down (count first : Nat) (source : Text) (offset : Nat) :
    sourcePosition (first + count) source offset =
      (sourcePosition first source offset).down count := by
  simp only [sourcePosition, Position.down, Position.mk.injEq, and_true]
  omega

theorem phrase_down (count first : Nat) (source : Text) (start stop : Nat) :
    phrase (first + count) source start stop =
      Node.relocateAll (Position.down count) (phrase first source start stop) := by
  simp only [phrase, sourcePosition_down]
  split <;> rfl

end Builder

theorem sameTags_down (count first : Nat) (source : Text) (tags : List Tag) :
    ∀ start, SameTags (Position.down count) first source (first + count) source start start
      tags tags := by
  induction tags with
  | nil =>
      intro start
      exact .done (Builder.phrase_down count first source start _)
  | cons tag tags ih =>
      intro start
      exact .tag rfl (Builder.phrase_down count first source start _)
        (Builder.sourcePosition_down count first source _) (ih tag.stop)

theorem Part.moves_down (count : Nat) (before : List Node) (part : Part) :
    part.Moves (Position.down count) before (part.down count) := by
  intro builder
  cases part with
  | prose first lines =>
      simp only [Part.down, Builder.addPart, proseNodes_down, Builder.add_relocate]
      rfl
  | statement line source =>
      exact congrArg Except.ok (Builder.add_relocate _ before builder
        [.element "mdxjsEsm" [] (some source) (some ⟨line, 1⟩)])
  | tagged first source tags => exact Builder.addTags_relocate (sameTags_down count _ _ _ 0) builder
  | unterminated first source offset =>
      simp only [Part.down, Builder.addPart, Builder.sourcePosition_down]
      rfl

theorem endPosition_append (front : List Text) {body : List Text} (nonempty : body ≠ []) :
    endPosition (front ++ body) = (endPosition body).down front.length := by
  simp only [endPosition, Position.down, List.length_append,
    List.getLast?_append_of_ne_nil front nonempty, Position.mk.injEq, and_true]
  omega

/-- The body of a document after other lines and some nodes. -/
theorem parseBody_append (nodes : List Node) (front body : List Text) :
    parseBody (1 + front.length) nodes body (front ++ body) =
      relocated (Position.down front.length)
        (nodes ++ Node.relocateAll (Position.down front.length) ·) (parseBody 1 [] body body) := by
  have start : Builder.empty.add nodes =
      Builder.empty.relocate (Position.down front.length) nodes := by
    simp [Builder.add, Builder.empty, Builder.relocate, Node.relocateAll]
  have parts := partsFrom_down front.length body .plain 0 1 [] (by simp)
  have moves : List.Forall₂ (Part.Moves (Position.down front.length) nodes)
      (partsFrom .plain 0 1 [] body)
      ((partsFrom .plain 0 1 [] body).map (Part.down front.length)) :=
    List.forall₂_map_right_iff.mpr
      (List.forall₂_same.mpr fun part _ => part.moves_down front.length nodes)
  simp only [Mode.down] at parts
  rw [parseBody, parseBody, parts, start, Builder.addParts_relocate moves, Builder.add_nil]
  cases added : Builder.empty.addParts (partsFrom .plain 0 1 [] body) with
  | error error => rfl
  | ok builder =>
      refine Builder.finish_relocate builder fun opened => endPosition_append front ?_
      rintro rfl
      obtain rfl := Except.ok.inj added
      exact opened rfl

theorem splitData?_of_head {lines : List Text}
    (plain : ∀ line ∈ lines.head?, isBoundary line = false) : splitData? lines = none := by
  cases lines with
  | nil => rfl
  | cons line lines => simp [splitData?, plain line rfl]

def dataBlock (inside : List Text) : Text :=
  "---\n".toList ++ (Text.unlines inside ++ "\n---\n".toList)

theorem lines_dataBlock {inside : List Text} (nonempty : inside ≠ [])
    (solid : ∀ line ∈ inside, ∀ c ∈ line, Text.isLineEnd c = false) (body : Text) :
    Text.lines (dataBlock inside ++ body) =
      "---".toList :: (inside ++ "---".toList :: Text.lines body) := by
  have bar : ∀ c ∈ "---".toList, Text.isLineEnd c = false := by simp [Text.isLineEnd]
  have split : dataBlock inside ++ body =
      "---".toList ++ '\n' :: (Text.unlines inside ++ '\n' :: ("---".toList ++ '\n' :: body)) := by
    simp [dataBlock]
  rw [split, Text.lines_append_feed bar, Text.lines_unlines_feed nonempty solid,
    Text.lines_append_feed bar]

/-- A block of data before a document moves all of the document's places down by the lines of the
block, those of an error among them, and adds a node for the data; what the data is does not
matter. -/
theorem parse_dataBlock_append {inside : List Text} (nonempty : inside ≠ [])
    (solid : ∀ line ∈ inside, ∀ c ∈ line, Text.isLineEnd c = false)
    (noBoundary : ∀ line ∈ inside, isBoundary line = false) {body : Text}
    (plain : ∀ line ∈ (Text.lines body).head?, isBoundary line = false) :
    parse (dataBlock inside ++ body) =
      match parse body with
      | .ok tree =>
        .ok (.root
          (.element "yaml" [] (some (Text.unlines inside)) (some ⟨1, 1⟩) ::
            Node.relocateAll (Position.down (inside.length + 2)) tree.children)
          (some ⟨1, 1⟩))
      | .error error => .error (error.relocate (Position.down (inside.length + 2))) := by
  have bar : isBoundary "---".toList = true := by decide
  have whole := lines_dataBlock nonempty solid body
  have data : DataLines _ _ inside _ (Text.lines body) := ⟨whole, bar, bar, noBoundary⟩
  have moved := parseBody_append [dataNode inside] ("---".toList :: (inside ++ ["---".toList]))
    (Text.lines body)
  have count : ("---".toList :: (inside ++ ["---".toList])).length = inside.length + 2 := by simp
  have first : 1 + (inside.length + 2) = inside.length + 3 := by omega
  rw [count, first, List.cons_append, List.append_assoc, List.singleton_append, ← whole] at moved
  simp only [parse, splitData?_of_dataLines data, splitData?_of_head plain, moved]
  cases parseBody 1 [] (Text.lines body) (Text.lines body) <;> rfl

theorem parse_dataBlock_append_tabs :
    parse (dataBlock ["title: Tabs", ""] ++ "<Tabs>\n <Tab/>\n</Tabs>") =
        .ok (.root [.element "yaml" [] (some "title: Tabs\n") (some ⟨1, 1⟩),
            .component "Tabs" [] [.component "Tab" [] [] (some ⟨6, 2⟩)] (some ⟨5, 1⟩)]
          (some ⟨1, 1⟩)) ∧
      parse (dataBlock ["title: Tabs", ""] ++ "<Tabs>\n </Tab>") =
        .error (.wrongClosing "Tab" ⟨6, 2⟩ "Tabs" ⟨5, 1⟩) := by
  have solid : ∀ line ∈ ["title: Tabs".toList, "".toList], ∀ c ∈ line,
      Text.isLineEnd c = false := by simp [Text.isLineEnd]
  have noBoundary : ∀ line ∈ ["title: Tabs".toList, "".toList], isBoundary line = false := by
    decide
  have closed : parse "<Tabs>\n <Tab/>\n</Tabs>" =
      .ok (.root [.component "Tabs" [] [.component "Tab" [] [] (some ⟨2, 2⟩)] (some ⟨1, 1⟩)]
        (some ⟨1, 1⟩)) := by rfl
  have misplaced : parse "<Tabs>\n </Tab>" =
      .error (.wrongClosing "Tab" ⟨2, 2⟩ "Tabs" ⟨1, 1⟩) := by rfl
  have first := @parse_dataBlock_append _ (by simp) solid noBoundary
    "<Tabs>\n <Tab/>\n</Tabs>".toList (by decide)
  have second := @parse_dataBlock_append _ (by simp) solid noBoundary
    "<Tabs>\n </Tab>".toList (by decide)
  rw [closed] at first
  rw [misplaced] at second
  exact ⟨first, second⟩

end Document

end MdxCheck
