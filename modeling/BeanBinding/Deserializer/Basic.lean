import BeanBinding.Deserializer.Instantiator
import BeanBinding.Document

/-!
# Deserializers

A `Deserializer` reads beans of one type. Values reach a bean by name, from entries, or by place,
from items. Properties are set on the bean; creators are collected first and handed to a
constructor, and properties that come meanwhile wait until the bean has been made.

Names are looked up in tables that hold the position of each property and creator. The element order
has one slot for each name: a creator stands for the property whose name it shares.
-/

namespace BeanBinding

/-- Positions by name. -/
abbrev NameTable := List (String × Nat)

/-- The place of an element: a property or a creator. -/
inductive Slot where
  | property (index : Nat)
  | creator (position : Nat)
deriving DecidableEq, Repr

/-- Reads the beans of one type. -/
structure Deserializer (σ : Type) where
  bean : BeanType
  shape : Shape
  failOnUnknown : Bool
  properties : List (Settable σ)
  propertyIndex : NameTable
  creators : List (Settable σ)
  /-- The argument slot of each creator. -/
  creatorSlots : List Nat
  creatorIndex : NameTable
  elementOrder : List Slot
  instantiator : Instantiator σ

namespace Deserializer

variable {σ : Type}

def property (d : Deserializer σ) (name : String) : Option (Settable σ) :=
  (d.propertyIndex.lookup name).bind fun i => d.properties[i]?

/-- The position of the creator of a name, and the creator. -/
def creator (d : Deserializer σ) (name : String) : Option (Nat × Settable σ) :=
  (d.creatorIndex.lookup name).bind fun i => (d.creators[i]?).map (i, ·)

/-- What an update sets by name: a property, or else a creator. -/
def updated (d : Deserializer σ) (name : String) : Option (Settable σ) :=
  d.property name <|> (d.creator name).map (·.2)

def inSlot (d : Deserializer σ) : Slot → Option (Settable σ)
  | .property i => d.properties[i]?
  | .creator i => d.creators[i]?

def elements (d : Deserializer σ) : List (Slot × Settable σ) :=
  d.elementOrder.filterMap fun slot => (d.inSlot slot).map (slot, ·)

/-- What a document must be to give a bean, in words. -/
def expecting (d : Deserializer σ) : String := s!"bean `{d.bean.name}`"

def notABean (d : Deserializer σ) : Content → ReadError
  | .entries .. | .numbered _ => .mismatch .map d.expecting
  | .items .. => .mismatch .sequence d.expecting
  | .neither (.ok found) => .mismatch found d.expecting
  | .neither (.error fault) => .fault fault

/-! ## Single steps -/

def decodeEntry (s : Settable σ) (r : Position) (value : Except Fault Json) :
    Except ReadError (Option Value) :=
  match value with
  | .error fault => .error (.fault fault)
  | .ok j => (s.decoder.decode r j).mapError .value

def decodeItem (s : Settable σ) (r : Position) (item : Item) : Except ReadError (Option Value) :=
  (item >>= s.decoder.decode r).mapError .value

/-- Fails if part of a value was left unread, where `fault` says what the next reader misses. -/
def checkRest (s : Settable σ) (r : Position) (fault : Fault) (j : Json) : Except ReadError Unit :=
  if s.decoder.leavesRest r.mode j then .error (.fault fault) else .ok ()

/-- Fails if part of the value of an entry was left unread. -/
def checkEntryRest (s : Settable σ) (r : Position) (value : Except Fault Json) :
    Except ReadError Unit :=
  match value with
  | .error _ => .ok ()
  | .ok j => checkRest s r .noObjectSeparator j

def checkItemRest (s : Settable σ) (r : Position) (item : Item) : Except ReadError Unit :=
  match item with
  | .error _ => .ok ()
  | .ok j => checkRest s r .noListSeparator j

/-- Passes over an entry whose name is not known, unless that is an error. -/
def skipUnknown (d : Deserializer σ) (name : String) (value : Except Fault Json) :
    Except ReadError Unit :=
  if d.failOnUnknown then .error (.codec (.unknownProperty d.bean.name name))
  else
    match value with
    | .error fault => .error (.fault fault)
    | .ok j =>
      match j.skipFault with
      | some fault => .error (.fault fault)
      | none => .ok ()

def finish : Option Fault → Except ReadError Unit
  | some fault => .error (.fault fault)
  | none => .ok ()

/-- What follows the last element that a bean has room for, after `room` elements. -/
def checkSurplus (room : Nat) (items : List Item) (ending : Option Fault) : Except ReadError Unit :=
  match items with
  | [] => finish ending
  | item :: _ =>
    match item.toOption.bind Json.skipFault with
    | some fault => .error (.fault fault)
    | none => .error (.surplus (room + 1))

/-- Goes on with a result, or fails and keeps the bean as it is. -/
def lift {α : Type} (x : Except ReadError α) : ChangeM ReadError σ α := fun bean =>
  match x with
  | .ok a => .ok a bean
  | .error e => .error e bean

def set (d : Deserializer σ) (s : Settable σ) (value : Option Value) : ChangeM ReadError σ Unit :=
  fun bean =>
    match s.set value bean with
    | .ok () bean => .ok () bean
    | .error e bean => .error (.codec (.access d.bean.name s.name e)) bean

/-! ## Updating beans -/

/-- Sets the values of entries on a bean, in order. -/
def updateEntries (d : Deserializer σ) (r : Position) (ending : Option Fault) :
    List Entry → ChangeM ReadError σ Unit
  | [] => lift (finish ending)
  | e :: es => do
    let name ← lift e.key
    match d.updated name with
    | some s => do
      d.set s (← lift (decodeEntry s r e.value))
      lift (checkEntryRest s r e.value)
    | none => lift (d.skipUnknown name e.value)
    updateEntries d r ending es

/-- Sets items on a bean, by place. -/
def updateItems (d : Deserializer σ) (r : Position) (ending : Option Fault) :
    List (Slot × Settable σ) → List Item → ChangeM ReadError σ Unit
  | [], items => lift (checkSurplus d.elementOrder.length items ending)
  | _ :: _, [] => lift (finish ending)
  | (_, s) :: slots, item :: items => do
    d.set s (← lift (decodeItem s r item))
    lift (checkItemRest s r item)
    updateItems d r ending slots items

/-- Updates a bean from a document. A failing update keeps what was set before. -/
def update (d : Deserializer σ) (document : Document) : ChangeM ReadError σ Unit := do
  if (← get).type ≠ d.bean then throw (.codec (.beanMismatch d.bean.name))
  match d.shape, document.seenAs d.shape with
  | .object, .entries es ending => updateEntries d document.position ending es
  | .array, .items is ending => updateItems d document.position ending d.elements is
  | _, content => throw (d.notABean content)

/-! ## Creating beans without creators -/

def instantiate (d : Deserializer σ) : Except ReadError (Bean σ) :=
  d.instantiator.make.mapError fun e => .codec (.instantiation d.bean.name e)

/-- Sets the values of entries on a new bean, in order. -/
def fillEntries (d : Deserializer σ) (r : Position) (ending : Option Fault) :
    List Entry → ChangeM ReadError σ Unit
  | [] => lift (finish ending)
  | e :: es => do
    let name ← lift e.key
    match d.property name with
    | some s => do
      d.set s (← lift (decodeEntry s r e.value))
      lift (checkEntryRest s r e.value)
    | none => lift (d.skipUnknown name e.value)
    fillEntries d r ending es

/-- Sets items on a new bean, by place. -/
def fillItems (d : Deserializer σ) (r : Position) (ending : Option Fault) :
    List (Slot × Settable σ) → List Item → ChangeM ReadError σ Unit
  | [], items => lift (checkSurplus d.elementOrder.length items ending)
  | _ :: _, [] => lift (finish ending)
  | (_, s) :: slots, item :: items => do
    d.set s (← lift (decodeItem s r item))
    lift (checkItemRest s r item)
    fillItems d r ending slots items

/-- Fills a new bean; nothing of it is left if that fails. -/
def fill (fresh : Except ReadError (Bean σ)) (change : ChangeM ReadError σ Unit) :
    Except ReadError (Bean σ) := do
  match change (← fresh) with
  | .ok () bean => .ok bean
  | .error e _ => .error e

/-! ## Creating beans from creators -/

/-- What has been collected for a bean that is not made yet. -/
structure Pending (σ : Type) where
  arguments : List (Option Value)
  /-- The slots for which the document had a value, null included. -/
  present : List Bool
  /-- The values of properties, in the order in which they came. -/
  buffered : List (Settable σ × Option Value)

/-- Nothing collected yet, with a slot for each creator. -/
def pending (d : Deserializer σ) : Pending σ where
  arguments := List.replicate d.creators.length none
  present := List.replicate d.creators.length false
  buffered := []

def slotOf (d : Deserializer σ) (position : Nat) : Nat := (d.creatorSlots[position]?).getD position

def Pending.argument (p : Pending σ) (slot : Nat) (value : Option Value) : Pending σ :=
  { p with arguments := p.arguments.set slot value, present := p.present.set slot true }

def Pending.buffer (p : Pending σ) (s : Settable σ) (value : Option Value) : Pending σ :=
  { p with buffered := p.buffered ++ [(s, value)] }

/-- Collects the values of entries; a creator goes before a property of the same name. -/
def collectEntries (d : Deserializer σ) (r : Position) (ending : Option Fault) :
    List Entry → Pending σ → Except ReadError (Pending σ)
  | [], p => do
    finish ending
    return p
  | e :: es, p => do
    let name ← e.key
    match d.creator name with
    | some (position, s) => do
      let value ← decodeEntry s r e.value
      checkEntryRest s r e.value
      collectEntries d r ending es (p.argument (d.slotOf position) value)
    | none =>
      match d.property name with
      | some s => do
        let value ← decodeEntry s r e.value
        checkEntryRest s r e.value
        collectEntries d r ending es (p.buffer s value)
      | none => do
        d.skipUnknown name e.value
        collectEntries d r ending es p

/-- Collects items, by place. -/
def collectItems (d : Deserializer σ) (r : Position) (ending : Option Fault) :
    List (Slot × Settable σ) → List Item → Pending σ → Except ReadError (Pending σ)
  | [], items, p => do
    checkSurplus d.elementOrder.length items ending
    return p
  | _ :: _, [], p => do
    finish ending
    return p
  | (slot, s) :: slots, item :: items, p => do
    let value ← decodeItem s r item
    checkItemRest s r item
    match slot with
    | .creator position =>
      collectItems d r ending slots items (p.argument (d.slotOf position) value)
    | .property _ => collectItems d r ending slots items (p.buffer s value)

/-- The first creator that is required but was not in the document. -/
def firstMissing (d : Deserializer σ) (p : Pending σ) : Option (Settable σ) :=
  (d.creators.zipIdx.find? fun (s, position) =>
    s.metadata.required && !(p.present[d.slotOf position]?).getD false).map (·.1)

/-- Sets collected values on a bean, in order. -/
def setAll (d : Deserializer σ) : List (Settable σ × Option Value) → ChangeM ReadError σ Unit
  | [] => pure ()
  | (s, value) :: rest => do
    d.set s value
    setAll d rest

def complete (d : Deserializer σ) (p : Pending σ) : Except ReadError (Bean σ) :=
  match d.firstMissing p with
  | some s => .error (.codec (.missingProperty d.bean.name s.name))
  | none =>
    let made := (d.instantiator.makeWith p.arguments).mapError fun e =>
      .codec (.instantiation d.bean.name e)
    fill made (d.setAll p.buffered)

/-! ## Creating beans -/

/-- Whether beans are made by a constructor with arguments. -/
def usesCreators (d : Deserializer σ) : Bool := !d.creators.isEmpty

def create (d : Deserializer σ) (document : Document) : Except ReadError (Bean σ) :=
  let r := document.position
  match d.shape, document.seenAs d.shape with
  | .object, .entries es ending =>
    if d.usesCreators then do d.complete (← d.collectEntries r ending es d.pending)
    else fill d.instantiate (d.fillEntries r ending es)
  | .array, .items is ending =>
    if d.usesCreators then do d.complete (← d.collectItems r ending d.elements is d.pending)
    else fill d.instantiate (d.fillItems r ending d.elements is)
  | _, content => .error (d.notABean content)

end Deserializer

end BeanBinding
