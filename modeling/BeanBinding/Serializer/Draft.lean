import BeanBinding.Description
import BeanBinding.Note
import BeanBinding.Serializer.Writer

/-!
# Serializers and their drafts

A codec first drafts a serializer from the description of a type, lets its modifiers change the
draft, and then builds the serializer. Building checks that there is something to write and that no
two writers have one name. Writers of members with a declared index come first, in the order of the
indices; otherwise the order of the members is kept.
-/

namespace BeanBinding

/-- Writes the beans of one type. -/
structure Serializer (σ : Type) where
  bean : BeanType
  shape : Shape
  writers : List (Writer σ)

/-- A serializer to be. -/
structure SerializerDraft (σ : Type) where
  bean : BeanType
  shape : Shape
  failOnEmpty : Bool
  writers : List (Writer σ)
  /-- What to note when the serializer cannot be built. -/
  onBuildError : Option (BeanType → CodecError → List Note)

namespace Serializer

variable {σ : Type}

def writer (s : Serializer σ) (name : String) : Option (Writer σ) :=
  s.writers.find? fun w => w.name = name

/-- The entries that writers write for a bean, in order. -/
def fields (bean : Bean σ) : List (Writer σ) → Except WriteError (List (String × Json))
  | [] => .ok []
  | w :: ws => do
    match ← w.field bean with
    | some j => return (w.name, j) :: (← fields bean ws)
    | none => fields bean ws

/-- The elements that writers write for a bean, one each. -/
def elements (bean : Bean σ) : List (Writer σ) → Except WriteError (List Json)
  | [] => .ok []
  | w :: ws => do return (← w.element bean) :: (← elements bean ws)

def serialize (s : Serializer σ) (bean : Bean σ) : Except WriteError Json :=
  if bean.type ≠ s.bean then .error (.codec (.beanMismatch s.bean.name))
  else
    match s.shape with
    | .object => (fields bean s.writers).map .record
    | .array => (elements bean s.writers).map .list

end Serializer

namespace SerializerDraft

variable {σ : Type}

def empty (bean : BeanType) (config : Config) : SerializerDraft σ :=
  ⟨bean, config.shape, config.failOnEmpty, [], none⟩

/-- The writer of a described member before its inclusion rule is applied. -/
def memberWriter (m : Member σ) : Writer σ :=
  { Writer.declare m.name m.property.valueType (.member m.property) with metadata := m.metadata }

def writerOf (config : Config) (m : Member σ) : Writer σ :=
  { (memberWriter m).withInclusion (m.inclusion.getD config.inclusion) with
    serializer := m.serializer
    nullSerializer := m.nullSerializer
    selfReference := config.selfReference }

/-- The order key of a writer: its declared index, or a number above every index. -/
def orderKey (w : Writer σ) : Int := w.metadata.index.getD IntKind.i64.highest

/-- Orders writers by their keys; writers with equal keys keep their order. -/
def sortByKey (ws : List (Writer σ)) : List (Writer σ) :=
  ws.mergeSort fun v w => orderKey v ≤ orderKey w

def readableMembers (d : Description σ) : List (Member σ) :=
  d.members.filter fun m => m.property.isReadable

def ofDescription (d : Description σ) (config : Config) : SerializerDraft σ where
  bean := d.bean
  shape := d.shape.getD config.shape
  failOnEmpty := config.failOnEmpty
  writers := sortByKey ((readableMembers d).map (writerOf config))
  onBuildError := none

/-- The warnings due when a draft is made from a description. -/
def descriptionWarnings (d : Description σ) (config : Config) : List Note :=
  (readableMembers d).filterMap fun m =>
    ((memberWriter m).inclusionWarning (m.inclusion.getD config.inclusion)).map (⟨.warning, ·⟩)

/-- The first name that occurs a second time, given those that occurred before. -/
def firstRepeated (seen : List String) : List String → Option String
  | [] => none
  | name :: names => if name ∈ seen then some name else firstRepeated (name :: seen) names

/-- What is wrong with a draft, if anything. -/
def problem (d : SerializerDraft σ) : Option BuildProblem :=
  if d.writers.isEmpty && d.failOnEmpty then some .noProperties
  else (firstRepeated [] (d.writers.map (·.name))).map .duplicateWriter

def build (d : SerializerDraft σ) : Except CodecError (Serializer σ) :=
  match d.problem with
  | some p => .error (.build d.bean.name p)
  | none => .ok ⟨d.bean, d.shape, d.writers⟩

def buildNotes (d : SerializerDraft σ) : List Note :=
  match d.build, d.onBuildError with
  | .error e, some hook => hook d.bean e
  | _, _ => []

end SerializerDraft

end BeanBinding
