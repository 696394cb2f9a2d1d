import BeanBinding.Deserializer.Basic

/-!
# Drafts of deserializers

A draft lists the settable properties of a type and holds the instantiator of its beans. Building
checks that beans can be made and that names are unique, assigns argument slots to creators, and
fixes the order of elements.
-/

namespace BeanBinding

/-- A deserializer to be. -/
structure DeserializerDraft (σ : Type) where
  bean : BeanType
  shape : Shape
  failOnUnknown : Bool
  properties : List (Settable σ)
  instantiator : Instantiator σ

namespace DeserializerDraft

variable {σ : Type}

/-- A draft without properties, for a type whose beans cannot be made. -/
def empty (bean : BeanType) (config : Config) : DeserializerDraft σ :=
  ⟨bean, config.shape, config.failOnUnknown, [], .none bean⟩

def ofDescription (d : Description σ) (config : Config) : DeserializerDraft σ where
  bean := d.bean
  shape := d.shape.getD config.shape
  failOnUnknown := config.failOnUnknown
  properties := d.members.filterMap Settable.ofMember
  instantiator := .ofDescription d

/-! ## Changing drafts -/

def property (d : DeserializerDraft σ) (name : String) : Option (Settable σ) :=
  d.properties.find? fun s => s.name = name

/-- A property list with a property added, in the place of the first of its name if there is one. -/
def putSettable (s : Settable σ) : List (Settable σ) → List (Settable σ)
  | [] => [s]
  | t :: ts => if t.name = s.name then s :: ts else t :: putSettable s ts

/-- Adds a property, or replaces the first of its name. -/
def addOrReplace (d : DeserializerDraft σ) (s : Settable σ) : DeserializerDraft σ :=
  { d with properties := putSettable s d.properties }

def remove (d : DeserializerDraft σ) (name : String) : DeserializerDraft σ :=
  { d with properties := d.properties.eraseP fun s => s.name = name }

/-! ## Building -/

/--
The positions of names from `position` on, with those of `table`; the first repeated name is
refused.
-/
def indexNames : List String → Nat → NameTable → Except String NameTable
  | [], _, table => .ok table
  | name :: names, position, table =>
    if (table.lookup name).isSome then .error name
    else indexNames names (position + 1) (table ++ [(name, position)])

def creators (d : DeserializerDraft σ) : List (Settable σ) :=
  if d.instantiator.makesFromValues then d.instantiator.creators else []

/-- The argument slot of a creator: its own index, or else its position. -/
def slotAt (s : Settable σ) (position : Nat) : Nat := s.creatorIndex.getD position

/-- The names and slots of creators from `position` on; `count` creators must find their slots. -/
def indexCreators (count : Nat) :
    List (Settable σ) → Nat → NameTable → List Nat → Except BuildProblem (NameTable × List Nat)
  | [], _, table, slots => .ok (table, slots)
  | s :: ss, position, table, slots =>
    let slot := slotAt s position
    if count ≤ slot then .error (.noSlot s.name slot)
    else if (table.lookup s.name).isSome then .error (.duplicateCreator s.name)
    else indexCreators count ss (position + 1) (table ++ [(s.name, position)]) (slots ++ [slot])

/-- The slots of properties, in order; a creator stands for a property that shares its name. -/
def propertySlots (creatorIndex : NameTable) (properties : List (Settable σ)) : List Slot :=
  properties.zipIdx.map fun (s, index) =>
    match creatorIndex.lookup s.name with
    | some position => .creator position
    | none => .property index

/-- The slots of properties, and then those of creators that stand for none. -/
def elementOrder (creatorIndex : NameTable) (properties : List (Settable σ)) (count : Nat) :
    List Slot :=
  let order := propertySlots creatorIndex properties
  order ++ ((List.range count).map Slot.creator).filter fun slot => slot ∉ order

def build (d : DeserializerDraft σ) : Except CodecError (Deserializer σ) :=
  let fail {α : Type} (p : BuildProblem) : Except CodecError α := .error (.build d.bean.name p)
  if !d.instantiator.makesBeans then fail .noCreator
  else
    match indexNames (d.properties.map (·.name)) 0 [] with
    | .error name => fail (.duplicateProperty name)
    | .ok propertyIndex =>
      match indexCreators d.creators.length d.creators 0 [] [] with
      | .error p => fail p
      | .ok (creatorIndex, creatorSlots) =>
        .ok {
          bean := d.bean
          shape := d.shape
          failOnUnknown := d.failOnUnknown
          properties := d.properties
          propertyIndex
          creators := d.creators
          creatorSlots
          creatorIndex
          elementOrder := elementOrder creatorIndex d.properties d.creators.length
          instantiator := d.instantiator }

end DeserializerDraft

end BeanBinding
