import DotChain.Heap.Picture

/-!
# Occurrences

A path of positions and names leads from a value down to what its containers hold, through containers
that may occur more than once. Main statement: `at?_picture`, a picture has at the end of a path what is
seen from there inside the containers on the way, if these are all different.
-/

namespace DotChain

/-- A step down: to an item of a list, or to a field of an object. -/
inductive Turn where
  | item (position : Nat)
  | field (name : String)
deriving DecidableEq

/-- A path leads from a value to one that occurs there, through containers of which the nearest is the
first. -/
inductive Heap.Leads (heap : Heap) (root : Value) : List Turn → List Container → Value → Prop where
  | here : Leads heap root [] [] root
  | item {path : List Turn} {above : List Container} {id : ListId} {position : Nat} {next : Value}
    (before : Leads heap root path above (.list id)) (there : (heap.items id)[position]? = some next) :
    Leads heap root (path ++ [.item position]) (.list id :: above) next
  | field {path : List Turn} {above : List Container} {id : ObjectId} {name : String} {next : Value}
    (before : Leads heap root path above (.object id)) (there : (name, next) ∈ heap.entries id) :
    Leads heap root (path ++ [.field name]) (.object id :: above) next

namespace Picture

/-- What a step down leads to. -/
def turn? : Turn → Picture → Option Picture
  | .item position, .list items => items[position]?
  | .field name, .object fields => Entries.get? name fields
  | _, _ => none

/-- What a path leads to. -/
def at? : List Turn → Picture → Option Picture
  | [], picture => some picture
  | turn :: rest, picture => (picture.turn? turn).bind (at? rest)

theorem at?_concat (path : List Turn) (turn : Turn) (picture : Picture) :
    at? (path ++ [turn]) picture = (at? path picture).bind (turn? turn) := by
  induction path generalizing picture with
  | nil => simp [at?]
  | cons first rest ih =>
    rw [List.cons_append, at?, at?, Option.bind_assoc]
    exact congrArg _ (funext ih)

end Picture

namespace Heap

variable {heap : Heap}

/-- Only handles that were given out lead further. -/
theorem Leads.held {root reached : Value} {path : List Turn} {above : List Container}
    (leads : heap.Leads root path above reached) : ∀ container ∈ above, heap.holds container = true := by
  induction leads with
  | here => exact fun _ member => absurd member List.not_mem_nil
  | item _ there ih => exact List.forall_mem_cons.mpr ⟨holds_of_mem_items (List.mem_of_getElem? there), ih⟩
  | field _ there ih => exact List.forall_mem_cons.mpr ⟨holds_of_mem_entries there, ih⟩

/-- What holds at the end of a path if it holds below, where no container is inside itself, holds at the end
of every such path: the further down, the fewer containers are left. -/
theorem Leads.downward {root : Value} {holds : List Turn → List Container → Value → Prop}
    (step : ∀ path above reached, heap.Leads root path above reached → above.Nodup →
      (∀ turn container next, container ∉ above →
        heap.Leads root (path ++ [turn]) (container :: above) next →
          holds (path ++ [turn]) (container :: above) next) → holds path above reached) :
    ∀ path above reached, heap.Leads root path above reached → above.Nodup → holds path above reached := by
  intro path above reached leads distinct
  induction left : heap.unopened above using Nat.strongRecOn generalizing path above reached with
  | ind left ih =>
    refine step path above reached leads distinct fun turn container next closed further => ?_
    have less := unopened_cons_lt (further.held container List.mem_cons_self) closed
    exact ih _ (by omega) _ _ _ further (List.nodup_cons.mpr ⟨closed, distinct⟩) rfl

/-- At the end of a path, a picture shows what is seen from there inside the containers above. -/
theorem at?_picture {root reached : Value} {path : List Turn} {above : List Container}
    (leads : heap.Leads root path above reached) (distinct : above.Nodup) :
    (heap.picture root).at? path = some (heap.pictureIn above reached) := by
  induction leads with
  | here => rfl
  | @item path above id position next before there ih =>
    obtain ⟨closed, distinct⟩ := List.nodup_cons.mp distinct
    rw [Picture.at?_concat, ih distinct, Option.bind_some, pictureIn_list, if_neg closed, Picture.turn?,
      List.getElem?_map, there, Option.map_some]
  | @field path above id name next before there ih =>
    obtain ⟨closed, distinct⟩ := List.nodup_cons.mp distinct
    have found := Entries.get?_of_mem (heap.ascending_entries id) there
    rw [Picture.at?_concat, ih distinct, Option.bind_some, pictureIn_object, if_neg closed, Picture.turn?,
      Entries.get?_mapValues, found, Option.map_some]

end Heap

end DotChain
