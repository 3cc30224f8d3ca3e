import DotChain.Heap.Document
import DotChain.Heap.Occurrence

/-!
# Back references

What is displayed, outlined or turned into a document may hold itself. Main statement: `cycles_cut`, each of
the three writes a value out in full, but for the occurrences of containers inside themselves, in whose place
a mark stands; a container that is merely shared is written out wherever it occurs. What is written is
described without pictures, by what stands at the end of each path (`Style.Drawn`). The three go through a value
each in its own way, with its own account of the containers that it is inside; that they agree is
`Heap.traversals_agree`, they all write out one picture.
-/

namespace DotChain

variable {α : Type}

namespace Style

/-- How a user sees values. -/
def display : Style String where
  literal
    | .null => "null"
    | .bool value => toString value
    | .int value => toString value.toInt
    | .float value => Binary64.Form.display.write value
    | .text value => value
  host card := "<" ++ card.typeName ++ ">"
  list items := "[" ++ ", ".intercalate items ++ "]"
  object fields := "\x7b" ++ ", ".intercalate (fields.map fun (name, text) => name ++ ": " ++ text) ++ "\x7d"
  cycle := "<cycle>"

/-- How the structure of values is shown. -/
def outline : Style String where
  literal
    | .null => "Null"
    | .bool value => s!"Bool({value})"
    | .int value => s!"Int({value.toInt})"
    | .float value => s!"Float({Binary64.Form.display.write value})"
    | .text value => s!"Str({Text.escaped value})"
  host card := s!"Host({card.outline})"
  list items := "[" ++ ", ".intercalate items ++ "]"
  object fields :=
    "\x7b" ++ ", ".intercalate (fields.map fun (name, text) => Text.escaped name ++ ": " ++ text) ++ "\x7d"
  cycle := "<cycle>"

/-- How values become documents. -/
def document : Style Json where
  literal
    | .null => .null
    | .bool value => .bool value
    | .int value => .int value
    | .float value => if value.isFinite then .float value else .null
    | .text value => .text value
  host card := .text ("<" ++ card.typeName ++ ">")
  list := .array
  object := .object
  cycle := .text "<cycle>"

/-- What stands for a value at the end of a path through some containers, when `drawn` is what stands at the
end of longer paths: a mark if the value is one of these containers; otherwise all that it holds, in
order. -/
def occurrence (style : Style α) (heap : Heap) (drawn : List Turn → α) (path : List Turn)
    (above : List Container) : Value → α
  | .null => style.literal .null
  | .bool value => style.literal (.bool value)
  | .int value => style.literal (.int value)
  | .float value => style.literal (.float value)
  | .text value => style.literal (.text value)
  | .list id =>
    if .list id ∈ above then style.cycle
    else style.list ((heap.items id).mapIdx fun position _ => drawn (path ++ [.item position]))
  | .object id =>
    if .object id ∈ above then style.cycle
    else style.object ((heap.entries id).map fun (name, _) => (name, drawn (path ++ [.field name])))
  | .host id => style.host (heap.card id)

/-- A value is written out as the output: at the end of every path on which no container is inside itself
stands what its occurrence there asks for. -/
def Drawn (style : Style α) (heap : Heap) (value : Value) (output : α) : Prop :=
  ∃ drawn : List Turn → α, drawn [] = output ∧
    ∀ path above reached, heap.Leads value path above reached → above.Nodup →
      drawn path = style.occurrence heap drawn path above reached

/-! ## Pictures -/

section
variable {style : Style α} {heap : Heap}

/-- An occurrence asks for its picture to be written out, if that is what stands below it. -/
private theorem occurrence_eq {value reached : Value} {path : List Turn} {above : List Container}
    {drawn : List Turn → α} (leads : heap.Leads value path above reached)
    (below : ∀ turn container next, container ∉ above →
      heap.Leads value (path ++ [turn]) (container :: above) next →
        drawn (path ++ [turn]) = (heap.pictureIn (container :: above) next).written style) :
    style.occurrence heap drawn path above reached = (heap.pictureIn above reached).written style := by
  cases reached with
  | list id =>
    rw [occurrence, Heap.pictureIn_list]
    split
    · rw [Picture.written]
    · next closed =>
      rw [Picture.written, Picture.writtenItems_eq_map, List.map_map]
      refine congrArg style.list (List.ext_getElem? fun position => ?_)
      rw [List.getElem?_mapIdx, List.getElem?_map]
      cases there : (heap.items id)[position]? with
      | none => rfl
      | some next => exact congrArg some (below _ _ _ closed (leads.item there))
  | object id =>
    rw [occurrence, Heap.pictureIn_object]
    split
    · rw [Picture.written]
    · next closed =>
      rw [Picture.written, Picture.writtenFields_eq_mapValues, Entries.mapValues_mapValues]
      refine congrArg style.object (List.map_congr_left fun entry there => ?_)
      exact congrArg (Prod.mk entry.1) (below _ _ _ closed (leads.field there))
  | _ => rw [Heap.pictureIn, occurrence, Picture.written]

/-- What stands at the end of a path, when a picture is written out. -/
private def writtenAt (style : Style α) (picture : Picture) (path : List Turn) : α :=
  ((picture.at? path).map (Picture.written style)).getD style.cycle

/-- What is drawn of a value is its picture written out, and only that. -/
theorem drawn_iff (style : Style α) (heap : Heap) (value : Value) (output : α) :
    style.Drawn heap value output ↔ output = (heap.picture value).written style := by
  constructor
  · rintro ⟨drawn, rfl, asked⟩
    have written : ∀ path above reached, heap.Leads value path above reached → above.Nodup →
        drawn path = (heap.pictureIn above reached).written style := by
      refine Heap.Leads.downward fun path above reached leads distinct inside => ?_
      exact (asked path above reached leads distinct).trans (occurrence_eq leads inside)
    exact written _ _ _ .here .nil
  · rintro rfl
    have there {path : List Turn} {above : List Container} {reached : Value}
        (leads : heap.Leads value path above reached) (distinct : above.Nodup) :
        writtenAt style (heap.picture value) path = (heap.pictureIn above reached).written style := by
      rw [writtenAt, Heap.at?_picture leads distinct, Option.map_some, Option.getD_some]
    refine ⟨writtenAt style (heap.picture value), rfl, ?_⟩
    intro path above reached leads distinct
    rw [there leads distinct]
    refine (occurrence_eq leads ?_).symm
    intro turn container next closed further
    exact there further (List.nodup_cons.mpr ⟨closed, distinct⟩)

end

/-! ## The three ways of writing -/

/-- A traversal writes in a style what it finds inside open containers: a mark for one of these, and otherwise
all that a container holds, inside that container as well. -/
structure Traverses (style : Style α) (heap : Heap) (write : List Container → Value → α) : Prop where
  literal (opened : List Container) (value : Literal) : write opened value.typed.value = style.literal value
  host (opened : List Container) (id : HostId) : write opened (.host id) = style.host (heap.card id)
  list (opened : List Container) (id : ListId) : write opened (.list id) =
    if .list id ∈ opened then style.cycle else style.list ((heap.items id).map (write (.list id :: opened)))
  object (opened : List Container) (id : ObjectId) : write opened (.object id) =
    if .object id ∈ opened then style.cycle
    else style.object (Entries.mapValues (write (.object id :: opened)) (heap.entries id))

/-- What a traversal writes is the picture written out: the further down, the fewer containers are left. -/
theorem Traverses.eq_written {style : Style α} {heap : Heap} {write : List Container → Value → α}
    (traverses : style.Traverses heap write) (opened : List Container) (value : Value) :
    write opened value = (heap.pictureIn opened value).written style := by
  induction left : heap.unopened opened using Nat.strongRecOn generalizing opened value with
  | ind left ih =>
    subst left
    have scalar (value : Literal) : write opened value.typed.value =
        (heap.pictureIn opened value.typed.value).written style := by
      rw [traverses.literal, Heap.pictureIn_literal, Picture.written]
    cases value with
    | null => exact scalar .null
    | bool value => exact scalar (.bool value)
    | int value => exact scalar (.int value)
    | float value => exact scalar (.float value)
    | text value => exact scalar (.text value)
    | host id => rw [traverses.host, Heap.pictureIn_host, Picture.written]
    | list id =>
      rw [traverses.list, Heap.pictureIn_list]
      split
      · rw [Picture.written]
      · next closed =>
        rw [Picture.written, Picture.writtenItems_eq_map, List.map_map]
        refine congrArg style.list (List.map_congr_left fun item there => ?_)
        exact ih _ (Heap.unopened_cons_lt (Heap.holds_of_mem_items there) closed) _ item rfl
    | object id =>
      rw [traverses.object, Heap.pictureIn_object]
      split
      · rw [Picture.written]
      · next closed =>
        rw [Picture.written, Picture.writtenFields_eq_mapValues, Entries.mapValues_mapValues]
        refine congrArg style.object (Entries.mapValues_congr fun entry there => ?_)
        exact ih _ (Heap.unopened_cons_lt (Heap.holds_of_mem_entries there) closed) _ entry.2 rfl

theorem traverses_display (heap : Heap) : display.Traverses heap heap.displayIn where
  literal opened value := by
    cases value <;> simp only [Literal.typed, TypedValue.null, Heap.displayIn, display]
  host opened id := by rw [Heap.displayIn, display]
  list := heap.displayIn_list
  object opened id := by
    simp only [heap.displayIn_object, display, Entries.map_mapValues]
    rfl

theorem traverses_outline (heap : Heap) : outline.Traverses heap heap.outlineIn where
  literal opened value := by
    cases value <;> simp only [Literal.typed, TypedValue.null, Heap.outlineIn, outline]
  host opened id := by rw [Heap.outlineIn, outline]
  list := heap.outlineIn_list
  object opened id := by
    simp only [heap.outlineIn_object, outline, Entries.map_mapValues]
    rfl

theorem traverses_document (heap : Heap) :
    document.Traverses heap fun opened => heap.documentIn (opened.map Container.value) where
  literal opened value := by
    cases value <;> simp only [Literal.typed, TypedValue.null, Heap.documentIn, document]
  host opened id := by
    rw [Heap.documentIn, Heap.display, Heap.displayIn, document]
  list := heap.documentIn_list
  object := heap.documentIn_object

end Style

/-- Displaying, outlining and turning into a document write out the same picture of a value, each in its own
style. -/
theorem Heap.traversals_agree (heap : Heap) (value : Value) :
    heap.display value = (heap.picture value).written .display ∧
      heap.outline value = (heap.picture value).written .outline ∧
        heap.document value = (heap.picture value).written .document :=
  ⟨(Style.traverses_display heap).eq_written [] value, (Style.traverses_outline heap).eq_written [] value,
    (Style.traverses_document heap).eq_written [] value⟩

/-- Values are displayed, outlined and turned into documents in full, on every heap, except that a mark
stands for each occurrence of a list or an object inside itself. -/
theorem cycles_cut (heap : Heap) (value : Value) :
    (∀ output, Style.display.Drawn heap value output ↔ output = heap.display value) ∧
    (∀ output, Style.outline.Drawn heap value output ↔ output = heap.outline value) ∧
    (∀ output, Style.document.Drawn heap value output ↔ output = heap.document value) := by
  obtain ⟨displayed, outlined, documented⟩ := heap.traversals_agree value
  rw [displayed, outlined, documented]
  exact ⟨Style.drawn_iff .display heap value, Style.drawn_iff .outline heap value,
    Style.drawn_iff .document heap value⟩

end DotChain
