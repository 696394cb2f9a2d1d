import BeanBinding.Modifier

/-!
# Codecs

A `Codec` writes and reads beans of all types. For each type it drafts a serializer and a
deserializer from the description of the type, lets the modifiers change the drafts, and builds
them. What has been built once is kept: the state of a codec holds what was built for each type,
next to the registry that the modifiers look into.
-/

namespace BeanBinding

/-- What does not change while a codec is used. -/
structure Codec (σ : Type) where
  config : Config
  descriptions : List (Description σ)
  modifiers : Modifiers σ

/-- What changes while a codec is used. -/
structure CodecState (σ : Type) where
  registry : Registry σ
  serializers : List (BeanType × Serializer σ)
  deserializers : List (BeanType × Deserializer σ)

/-- What an operation of a codec gives: a result, the state after it, and notes. -/
structure Step (σ α : Type) where
  result : α
  state : CodecState σ
  notes : List Note

namespace CodecState

variable {σ : Type}

def ofRegistry (registry : Registry σ) : CodecState σ := ⟨registry, [], []⟩

def serializer (st : CodecState σ) (type : BeanType) : Option (Serializer σ) :=
  st.serializers.lookup type

def deserializer (st : CodecState σ) (type : BeanType) : Option (Deserializer σ) :=
  st.deserializers.lookup type

def register (st : CodecState σ) (i : Introspection σ) : CodecState σ :=
  { st with registry := st.registry.register i }

end CodecState

namespace Codec

variable {σ : Type}

/-! ## Setting up -/

/-- Descriptions with one added, in the place of one of its type if there is one. -/
def putDescription (d : Description σ) : List (Description σ) → List (Description σ)
  | [] => [d]
  | e :: es => if e.bean = d.bean then d :: es else e :: putDescription d es

/-- A codec with settings, descriptions, of which a later one of a type counts, and modules. -/
def setup (config : Config) (descriptions : List (Description σ)) (modules : List (Module σ)) :
    Codec σ where
  config
  descriptions := descriptions.foldl (fun ds d => putDescription d ds) []
  modifiers := modules.foldl (fun ms m => ms.append (m.setup config)) .none

def description (c : Codec σ) (type : BeanType) : Option (Description σ) :=
  c.descriptions.find? fun d => d.bean = type

/-! ## Building -/

def draftSerializer (c : Codec σ) (type : BeanType) : Noted (SerializerDraft σ) :=
  match c.description type with
  | some d =>
    ⟨.ofDescription d c.config, SerializerDraft.descriptionWarnings d c.config⟩
  | none => pure (.empty type c.config)

/-- The draft of a deserializer before it is modified. -/
def draftDeserializer (c : Codec σ) (type : BeanType) : DeserializerDraft σ :=
  match c.description type with
  | some d => .ofDescription d c.config
  | none => .empty type c.config

def buildSerializer (c : Codec σ) (registry : Registry σ) (type : BeanType) :
    Noted (Except CodecError (Serializer σ)) := do
  let draft ← modifyDraft registry c.config type c.modifiers.serializer
    (← c.draftSerializer type)
  ⟨draft.build, draft.buildNotes⟩

def buildDeserializer (c : Codec σ) (registry : Registry σ) (type : BeanType) :
    Noted (Except CodecError (Deserializer σ)) := do
  let draft ← modifyDraft registry c.config type c.modifiers.deserializer
    (c.draftDeserializer type)
  return draft.build

/-! ## Using a codec -/

/-- The serializer of a type, which is built at most once. -/
def serializerFor (c : Codec σ) (type : BeanType) (st : CodecState σ) :
    Step σ (Except CodecError (Serializer σ)) :=
  match st.serializer type with
  | some s => ⟨.ok s, st, []⟩
  | none =>
    let built := c.buildSerializer st.registry type
    match built.value with
    | .ok s => ⟨.ok s, { st with serializers := st.serializers ++ [(type, s)] }, built.notes⟩
    | .error e => ⟨.error e, st, built.notes⟩

/-- The deserializer of a type, which is built at most once. -/
def deserializerFor (c : Codec σ) (type : BeanType) (st : CodecState σ) :
    Step σ (Except CodecError (Deserializer σ)) :=
  match st.deserializer type with
  | some d => ⟨.ok d, st, []⟩
  | none =>
    let built := c.buildDeserializer st.registry type
    match built.value with
    | .ok d => ⟨.ok d, { st with deserializers := st.deserializers ++ [(type, d)] }, built.notes⟩
    | .error e => ⟨.error e, st, built.notes⟩

def write (c : Codec σ) (bean : Bean σ) (st : CodecState σ) : Step σ (Except WriteError Json) :=
  let step := c.serializerFor bean.type st
  { step with result := match step.result with
      | .ok s => s.serialize bean
      | .error e => .error (.codec e) }

/-- A bean that was made, if it has the type that was asked for. -/
def ofType (type : BeanType) (bean : Bean σ) : Except ReadError (Bean σ) :=
  if bean.type = type then .ok bean else .error (.codec (.beanMismatch type.name))

def read (c : Codec σ) (type : BeanType) (document : Document) (st : CodecState σ) :
    Step σ (Except ReadError (Bean σ)) :=
  let step := c.deserializerFor type st
  { step with result := match step.result with
      | .ok d => do ofType type (← d.create document)
      | .error e => .error (.codec e) }

/-- Reads beans of a type, up to the first failure. -/
def readItems (c : Codec σ) (type : BeanType) :
    List Json → CodecState σ → Step σ (List (Bean σ) × Option ReadError)
  | [], st => ⟨([], none), st, []⟩
  | j :: js, st =>
    let step := c.read type (.ofJson .streamed 1 j) st
    match step.result with
    | .error e => ⟨([], some e), step.state, step.notes⟩
    | .ok bean =>
      let rest := c.readItems type js step.state
      ⟨(bean :: rest.result.1, rest.result.2), rest.state, step.notes ++ rest.notes⟩

/-- Reads an array of beans of a type: those before the first failure, and the failure. -/
def readList (c : Codec σ) (type : BeanType) (j : Json) (st : CodecState σ) :
    Step σ (List (Bean σ) × Option ReadError) :=
  match j with
  | .array items ending =>
    let step := c.readItems type items st
    let failure := step.result.2 <|> (ending.readFault .list).map .fault
    { step with result := (step.result.1, failure) }
  | j =>
    let failure := match j.found with
      | .ok found => .mismatch found "beans"
      | .error fault => .fault fault
    ⟨([], some failure), st, []⟩

/-- Updates a bean; the bean comes back as the update left it. -/
def update (c : Codec σ) (bean : Bean σ) (document : Document) (st : CodecState σ) :
    Step σ (EStateM.Result ReadError (Bean σ) Unit) :=
  let step := c.deserializerFor bean.type st
  { step with result := match step.result with
      | .ok d => d.update document bean
      | .error e => .error (.codec e) bean }

end Codec

end BeanBinding
