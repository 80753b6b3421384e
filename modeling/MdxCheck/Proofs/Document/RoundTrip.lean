import MdxCheck.Proofs.Document.Layout

/-!
Reading a layout of a forest gives the forest back.
-/

namespace MdxCheck.Document

open Tag (IsName IsAttributeName IsGap WritesAttributes Spaced)

/-! The single tags of a layout. -/

theorem getLast?_attributes {attributes : List Attribute} {source : Text}
    (written : WritesAttributes attributes source)
    (named : ∀ given ∈ attributes, IsAttributeName given.name) :
    ∀ c, source.getLast? = some c → Text.isBlank c = false ∧ c ≠ '/' := by
  induction written with
  | nil => simp
  | @cons gap given source attributes rest _ _ attributeSource _ ih =>
      intro c last
      rw [List.getLast?_append, List.getLast?_append] at last
      cases later : rest.getLast? with
      | some d =>
          have inner := ih fun other member => named other (by simp [member])
          have same : d = c := by simpa [later] using last
          exact inner c (same ▸ later)
      | none =>
          have isName := named given (by simp)
          cases attributeSource with
          | bare _ =>
              obtain ⟨letter, letters⟩ : ∃ d, source.getLast? = some d :=
                ⟨_, List.getLast?_eq_some_getLast isName.nonempty⟩
              have same : letter = c := by simpa [later, letters] using last
              have member := isName.letters c (same ▸ List.mem_of_getLast? letters)
              obtain ⟨notBlank, -, -, -, notSlash, -⟩ := Tag.isAttributeChar_iff.mp member
              exact ⟨notBlank, notSlash⟩
          | @quoted name value quote isQuote _ =>
              have same : quote = c := by
                simpa [later, List.getLast?_append, List.getLast?_cons] using last
              subst same
              rcases isQuote with rfl | rfl <;> decide

theorem spaced_tag (closing : Bool) {name body trimmed : Text} (isName : IsName name)
    (ends : Tag.endsName (body ++ ['>']) = true)
    (tail : Tag.tail? 0 none (body ++ ['>']) = some (body.length + 1))
    (trim : Text.trimEnd body = trimmed) :
    Spaced (Tag.openingSource closing name ++ (body ++ ['>']))
      [⟨name, closing, trimmed.getLast? == some '/',
        if trimmed.getLast? == some '/' then trimmed.dropLast else trimmed, 0, 0⟩] := by
  have opens := Tag.opening?_source closing isName ends
  have whole := Tag.openingSource_length ⟨closing, name, body ++ ['>']⟩
  have nothing : Spaced ((Tag.openingSource closing name ++ (body ++ ['>'])).drop
      (Tag.Opening.length ⟨closing, name, body ++ ['>']⟩ + (body.length + 1))) [] := by
    rw [List.drop_eq_nil_of_le]
    · exact .done
    · simp only at whole
      simp only [List.length_append, whole, List.length_singleton]
      omega
  have spaced := Spaced.tag opens tail nothing
  have inside : (body ++ ['>']).take (body.length + 1 - 1) = body := List.take_left
  simpa only [Tag.ofOpening, Tag.bare, inside, trim] using spaced

theorem endsName_attributes {attributes : List Attribute} {source stop rest : Text}
    (written : WritesAttributes attributes source) (isGap : IsGap stop)
    (ends : Tag.endsName rest = true) : Tag.endsName (source ++ stop ++ rest) = true := by
  have ofBlank : ∀ {c : Char} (tail : Text), Text.isBlank c = true →
      Tag.endsName (c :: tail) = true := by
    intro c tail blank
    simp [Tag.endsName, blank]
  cases written with
  | nil =>
      cases stop with
      | nil => exact ends
      | cons c stop => exact ofBlank _ (Tag.isBlank_of_isGap isGap c (by simp))
  | @cons gap _ _ _ _ nonempty between _ _ =>
      obtain ⟨c, others, rfl⟩ := List.exists_cons_of_ne_nil nonempty
      exact ofBlank _ (Tag.isBlank_of_isGap between c (by simp))

section

variable {name : Text} {attributes : List Attribute} {source stop : Text}

def bareOpening (name attributes : Text) : Tag :=
  ⟨name, false, false, attributes, 0, 0⟩

def bareLeaf (name attributes : Text) : Tag :=
  ⟨name, false, true, attributes, 0, 0⟩

def bareClosing (name : Text) : Tag :=
  ⟨name, true, false, [], 0, 0⟩

theorem spaced_openingTag (isName : IsName name) (written : WritesAttributes attributes source)
    (named : ∀ given ∈ attributes, IsAttributeName given.name) (isGap : IsGap stop) :
    Spaced (openingTag name (source ++ stop)) [bareOpening name source] := by
  have tail : Tag.tail? 0 none (source ++ stop ++ ['>']) = some ((source ++ stop).length + 1) := by
    rw [List.append_assoc, Tag.tail?_attributes written named, Tag.tail?_gap isGap]
    simp [Tag.tail?]
    omega
  have last := getLast?_attributes written named
  have trimmed := Text.trimEnd_append_blank (fun c same => (last c same).1) (Tag.isBlank_of_isGap isGap)
  have notSelf : (source.getLast? == some '/') = false := by
    rw [beq_eq_false_iff_ne]
    intro same
    exact (last '/' same).2 rfl
  have spaced := spaced_tag false isName (endsName_attributes written isGap rfl) tail trimmed
  simpa [notSelf, Tag.openingSource, openingTag, bareOpening] using spaced

theorem spaced_leafTag (isName : IsName name) (written : WritesAttributes attributes source)
    (named : ∀ given ∈ attributes, IsAttributeName given.name) (isGap : IsGap stop) :
    Spaced (leafTag name (source ++ stop)) [bareLeaf name (source ++ stop)] := by
  have tail : Tag.tail? 0 none (source ++ stop ++ ['/'] ++ ['>']) =
      some ((source ++ stop ++ ['/']).length + 1) := by
    rw [List.append_assoc, List.append_assoc, Tag.tail?_attributes written named,
      Tag.tail?_gap isGap]
    simp [Tag.tail?]
    omega
  have ends : Tag.endsName (source ++ stop ++ ['/'] ++ ['>']) = true := by
    rw [List.append_assoc]
    exact endsName_attributes written isGap rfl
  have trimmed : Text.trimEnd (source ++ stop ++ ['/']) = source ++ stop ++ ['/'] := by
    simp [Text.trimEnd, Text.isBlank]
  have last : (source ++ stop ++ ['/']).getLast? == some '/' := by simp
  have spaced := spaced_tag false isName ends tail trimmed
  rw [last, if_pos rfl, List.dropLast_concat] at spaced
  simpa [Tag.openingSource, leafTag, bareLeaf] using spaced

theorem spaced_closingTag (isName : IsName name) :
    Spaced (closingTag name) [bareClosing name] := by
  have spaced := @spaced_tag true name [] [] isName rfl (by decide) rfl
  simpa [Tag.openingSource, closingTag, bareClosing] using spaced

end

/-! Building the tree of a layout. -/

/-- Wherever tags stand, they build a forest, but for the places of its nodes. -/
def Builds (tags : List Tag) (forest : List Node) : Prop :=
  ∀ placed : List PlacedTag, placed.map (fun given => given.tag.bare) = tags →
    ∃ nodes, Node.unplacedAll nodes = Node.unplacedAll forest ∧
      ∀ builder : Builder, builder.handleAll placed = .ok (builder.add nodes)

theorem builds_nil : Builds [] [] := by
  intro placed same
  obtain rfl : placed = [] := List.map_eq_nil_iff.mp same
  exact ⟨[], rfl, fun builder => by simp [Builder.handleAll]⟩

theorem Builds.append {first second : List Tag} {front back : List Node}
    (left : Builds first front) (right : Builds second back) :
    Builds (first ++ second) (front ++ back) := by
  intro placed same
  obtain ⟨before, after, rfl, beforeTags, afterTags⟩ := List.map_eq_append_iff.mp same
  obtain ⟨nodes, sameFront, added⟩ := left before beforeTags
  obtain ⟨others, sameBack, addedToo⟩ := right after afterTags
  refine ⟨nodes ++ others, ?_, ?_⟩
  · rw [Node.unplacedAll_append, Node.unplacedAll_append, sameFront, sameBack]
  · intro builder
    calc builder.handleAll (before ++ after)
        = (builder.handleAll before >>= fun next => next.handleAll after) :=
          Builder.handleAll_append builder before after
      _ = (builder.add nodes).handleAll after := by
          rw [added]
          rfl
      _ = .ok (builder.add (nodes ++ others)) := by
          rw [addedToo, Builder.add_add]

section

variable (name : Text) {source : Text} {attributes : List Attribute} (position : Option Position)
  (read : Tag.parseAttributes source = attributes)

include read

theorem Builds.pair {inner : List Tag} {children : List Node} (built : Builds inner children) :
    Builds (bareOpening name source :: (inner ++ [bareClosing name]))
      [.component name attributes children position] := by
  intro placed same
  obtain ⟨first, later, rfl, firstTag, laterTags⟩ := List.map_eq_cons_iff.mp same
  obtain ⟨between, final, rfl, betweenTags, finalTags⟩ := List.map_eq_append_iff.mp laterTags
  obtain ⟨last, none, rfl, lastTag, noTags⟩ := List.map_eq_cons_iff.mp finalTags
  obtain rfl : none = [] := List.map_eq_nil_iff.mp noTags
  obtain ⟨nodes, sameChildren, added⟩ := built between betweenTags
  simp only [Tag.bare, bareOpening, bareClosing, Tag.mk.injEq] at firstTag lastTag
  obtain ⟨firstName, opens, stays, firstAttributes, -, -⟩ := firstTag
  obtain ⟨lastName, closes, -, -, -, -⟩ := lastTag
  refine ⟨[.component name attributes nodes (some first.position)], ?_, ?_⟩
  · simp [Node.unplacedAll, Node.unplaced, sameChildren]
  · intro builder
    -- the children go into the component that the first tag leaves open
    have opened := (@Builder.Takes.opening first.tag first.position builder.nodes builder.opened
      opens stays).handle
    rw [Builder.handleAll, opened]
    change Builder.handleAll _ (between ++ [last]) = _
    rw [Builder.handleAll_append, added]
    simp [Builder.handleAll, Builder.handle, closes, firstName, lastName, firstAttributes, read,
      Builder.add, bind, Except.bind]

theorem builds_leaf : Builds [bareLeaf name source] [.component name attributes [] position] := by
  intro placed same
  obtain ⟨first, none, rfl, firstTag, noTags⟩ := List.map_eq_cons_iff.mp same
  obtain rfl : none = [] := List.map_eq_nil_iff.mp noTags
  simp only [Tag.bare, bareLeaf, Tag.mk.injEq] at firstTag
  obtain ⟨firstName, opens, self, firstAttributes, -, -⟩ := firstTag
  refine ⟨[.component name attributes [] (some first.position)], ?_, ?_⟩
  · simp [Node.unplacedAll, Node.unplaced]
  · intro builder
    have added := (@Builder.Takes.selfClosing first.tag first.position builder opens self).handle
    rw [firstName, firstAttributes, read] at added
    rw [Builder.handleAll, added]
    rfl

end

theorem Plain.named {attributes : List Attribute}
    (plain : ∀ given ∈ attributes, IsPlainAttribute given) :
    ∀ given ∈ attributes, IsAttributeName given.name :=
  fun given member => (plain given member).name

theorem builds_written {forest : List Node} {text : Text} (written : Writes forest text)
    (plain : Plain forest) : ∃ tags, Spaced text tags ∧ Builds tags forest := by
  induction written with
  | nil isGap => exact ⟨[], .of_blank (Tag.isBlank_of_isGap isGap), builds_nil⟩
  | @pair gap name attributes source stop children position inside rest after isGap
      attributesWritten stopGap _ _ childrenRead restRead =>
      cases plain with
      | cons isName given plainChildren plainRest =>
          obtain ⟨childTags, childrenSpaced, childrenBuilt⟩ := childrenRead plainChildren
          obtain ⟨restTags, restSpaced, restBuilt⟩ := restRead plainRest
          have named := Plain.named given
          have gapSpaced := Spaced.of_blank (Tag.isBlank_of_isGap isGap)
          have opens := spaced_openingTag isName attributesWritten named stopGap
          have closes := spaced_closingTag isName
          have spaced := gapSpaced.append (opens.append (childrenSpaced.append
            (closes.append restSpaced)))
          have read := Tag.parseAttributes_written attributesWritten named
            (by simp [IsGap] : IsGap [])
          rw [List.append_nil] at read
          have built := (Builds.pair name position read childrenBuilt).append restBuilt
          rw [List.cons_append, List.append_assoc] at built
          exact ⟨_, spaced, built⟩
  | @leaf gap name attributes source stop position rest after isGap attributesWritten stopGap _
      restRead =>
      cases plain with
      | cons isName given _ plainRest =>
          obtain ⟨restTags, restSpaced, restBuilt⟩ := restRead plainRest
          have named := Plain.named given
          have gapSpaced := Spaced.of_blank (Tag.isBlank_of_isGap isGap)
          have leaf := spaced_leafTag isName attributesWritten named stopGap
          have spaced := gapSpaced.append (leaf.append restSpaced)
          have read := Tag.parseAttributes_written attributesWritten named stopGap
          exact ⟨_, spaced, (builds_leaf name position read).append restBuilt⟩

/-- Every forest of components that can be written has a layout, and reading any layout of it
gives the forest back, with places added. -/
theorem parse_written {forest : List Node} (plain : Plain forest) :
    (∃ text, Writes forest text) ∧
      ∀ text, Writes forest text →
        ∃ nodes, parse text = .ok (.root nodes (some ⟨1, 1⟩)) ∧
          Node.unplacedAll nodes = Node.unplacedAll forest := by
  refine ⟨exists_writes plain, ?_⟩
  intro text written
  -- the lines, joined, may lack the line feed at the end of the text
  have joined : Writes forest (Text.unlines (Text.lines text)) := by
    rcases Text.eq_unlines_lines (feedsOnly_written written plain) with same | same
    · exact same ▸ written
    · exact written.of_append_feed _ same
  obtain ⟨tags, spaced, built⟩ := builds_written joined plain
  have noData := splitData?_of_spaced spaced
  obtain ⟨placed, same, added⟩ :=
    addParts_of_spaced (partsFrom_cut 0 1 [] (Text.lines text)) tags spaced (by simp)
  obtain ⟨nodes, unplaced, handled⟩ := built placed same
  refine ⟨nodes, ?_, unplaced⟩
  have body : parseBody 1 [] (Text.lines text) (Text.lines text) = .ok nodes := by
    rw [parseBody, added, handled]
    simp [Builder.add, Builder.empty, Builder.finish, bind, Except.bind]
  simp only [parse, noData, body]
  rfl

theorem parse_written_tabs :
    ∃ nodes, parse "<Tabs label=\"a > b\n\x7b/\" wide>\n\n <Tab/>\n</Tabs><Bar></Bar>\n" =
        .ok (.root nodes (some ⟨1, 1⟩)) ∧
      Node.unplacedAll nodes =
        [.component "Tabs" [⟨"label", some "a > b\n\x7b/"⟩, ⟨"wide", none⟩]
          [.component "Tab" [] [] none] none, .component "Bar" [] [] none] := by
  have noGap : IsGap [] := by simp [IsGap]
  have space : IsGap [' '] := by simp [IsGap]
  have feed : IsGap ['\n'] := by simp [IsGap]
  have blankLine : IsGap ['\n', '\n', ' '] := by simp [IsGap]
  have label : IsPlainAttribute ⟨"label", some "a > b\n\x7b/"⟩ :=
    ⟨⟨by decide, List.all_eq_true.mp rfl⟩, fun value same => by
      obtain rfl := Option.some.inj same
      exact ⟨Or.inl (by decide), .of_all rfl⟩⟩
  have wide : IsPlainAttribute ⟨"wide", none⟩ := ⟨⟨by decide, List.all_eq_true.mp rfl⟩, by simp⟩
  have tabs : IsName "Tabs" := ⟨'T', "abs", rfl, by decide, List.all_eq_true.mp rfl⟩
  have tab : IsName "Tab" := ⟨'T', "ab", rfl, by decide, List.all_eq_true.mp rfl⟩
  have bar : IsName "Bar" := ⟨'B', "ar", rfl, by decide, List.all_eq_true.mp rfl⟩
  have plain : Plain [.component "Tabs" [⟨"label", some "a > b\n\x7b/"⟩, ⟨"wide", none⟩]
      [.component "Tab" [] [] none] none, .component "Bar" [] [] none] :=
    .cons tabs (by simpa only [List.forall_mem_cons] using ⟨label, wide, by simp⟩) (.cons tab (by simp) .nil .nil)
      (.cons bar (by simp) .nil .nil)
  have attributes := WritesAttributes.cons (by decide) space
    (@Tag.WritesAttribute.quoted "label" "a > b\n\x7b/" '"' (Or.inl rfl) (by decide))
    (.cons (by decide) space (.bare "wide") .nil)
  have inside := @Writes.leaf _ "Tab" _ _ _ none _ _ blankLine .nil noGap (.nil feed)
  have after := @Writes.pair _ "Bar" _ _ _ _ none _ _ _ noGap .nil noGap (.nil noGap) (.nil feed)
  have written := @Writes.pair _ "Tabs" _ _ _ _ none _ _ _ noGap attributes noGap inside after
  exact (parse_written plain).2 _ written

end MdxCheck.Document
