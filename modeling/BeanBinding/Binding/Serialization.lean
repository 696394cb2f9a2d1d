import BeanBinding.Modifier

/-!
# Binding writers to introspected properties

The writers of a draft are matched with introspected properties by name: first by the names that
properties declare for documents, then by their own names. A matched writer reads through the
property and takes over its type; all its other rules stay. A draft without writers gets one for
each property.
-/

namespace BeanBinding

/-- The defaults for writers made from properties. -/
structure SerializationBinder where
  inclusion : Inclusion
  selfReference : SelfReference

namespace SerializationBinder

variable {σ : Type}

def ofConfig (config : Config) : SerializationBinder := ⟨config.inclusion, config.selfReference⟩

/--
The properties by the names that they declare for documents; of several with one name the first
counts.
-/
def declaredNames : List (Property σ) → List (String × Property σ) → List (String × Property σ)
  | [], table => table
  | p :: ps, table =>
    match p.annotations.declaredName with
    | none => declaredNames ps table
    | some name =>
      if (table.lookup name).isSome then declaredNames ps table
      else declaredNames ps (table ++ [(name, p)])

def match? (i : Introspection σ) (name : String) : Option (Property σ) :=
  (declaredNames i.properties []).lookup name <|> i.property name

/-- The writer bound to the property that its name means, if that can be read. -/
def bind (i : Introspection σ) (w : Writer σ) : Writer σ :=
  match (match? i w.name).filter (·.isReadable) with
  | some p => w.rebind p.valueType (.introspected p)
  | none => w

/-- The writer of a property before its inclusion rule is applied. -/
def propertyWriter (p : Property σ) : Writer σ :=
  { Writer.declare p.externalName p.valueType (.introspected p) with
    metadata := p.annotations.metadata }

def synthesize (b : SerializationBinder) (p : Property σ) : Writer σ :=
  { (propertyWriter p).withInclusion b.inclusion with selfReference := b.selfReference }

/-- Whether the writers of a draft are made from properties. -/
def synthesizes (i : Introspection σ) (ws : List (Writer σ)) : Bool :=
  ws.isEmpty && !i.properties.isEmpty

/-- The writers of a draft, bound to properties or made from them. -/
def adjust (b : SerializationBinder) (i : Introspection σ) (ws : List (Writer σ)) :
    List (Writer σ) :=
  if synthesizes i ws then i.properties.map b.synthesize else ws.map (bind i)

/-- The warnings due when the writers of a draft are adjusted. -/
def warnings (b : SerializationBinder) (i : Introspection σ) (ws : List (Writer σ)) : List Note :=
  if synthesizes i ws then
    i.properties.filterMap fun p =>
      ((propertyWriter p).inclusionWarning b.inclusion).map (⟨.warning, ·⟩)
  else []

end SerializationBinder

def noteBuildError (bean : BeanType) (e : CodecError) : List Note :=
  [⟨.error, s!"Error building bean serializer for type `{bean.name}`: {e.message}"⟩]

def bindSerializers {σ : Type} : SerializerModifier σ := fun registry config type draft =>
  match registry.find type with
  | none => pure draft
  | some i =>
    let b := SerializationBinder.ofConfig config
    { value := { draft with
        writers := b.adjust i draft.writers
        onBuildError := some noteBuildError }
      notes := b.warnings i draft.writers }

end BeanBinding
