import BeanBinding.Proofs.Elements
import BeanBinding.Proofs.Synthesis

/-!
# What is collected for a bean that is not made yet

A bean that is made from arguments is made last, when its document has been read to the
end. Until then every entry leaves something behind: a value in the slot of the argument
of its name, or one that waits for the bean.

`gathered` tells what some entries have left behind without going through them in turn:
a slot has the last value under its name, and the values that wait are in the order of
the document. One entry more is the step (`keepEntry_gathered`), a document is the run
(`collectEntries_gathered`).

Whatever a document is like, collecting only fails for reasons that lie in the document,
and it never changes the number of slots (`proper_collectEntries`, `proper_collectItems`).
-/

namespace BeanBinding

variable {σ : Type}

/-! ## Errors -/

/-- The error lies in the document: in its text, in a value, or in a name that is not known. -/
def ReadError.OfDocument : ReadError → Prop
  | .codec (.unknownProperty ..) => True
  | .codec _ => False
  | _ => True

/-- A value, or null, that a property or creator gets from some document. -/
def Settable.Decodes (s : Settable σ) (value : Option Value) : Prop :=
  ∃ r j, s.decoder.decode r j = .ok value

namespace Deserializer

variable {d : Deserializer σ} {r : Position}

/-- Either something has been collected, with a slot for each creator, or the document is wrong. -/
def Proper (d : Deserializer σ) : Except ReadError (Pending σ) → Prop
  | .ok p => p.arguments.length = d.creators.length
  | .error e => e.OfDocument

theorem proper_bind {α : Type} {x : Except ReadError α} {f : α → Except ReadError (Pending σ)}
    (hx : ∀ e, x = .error e → e.OfDocument) (hf : ∀ a, d.Proper (f a)) : d.Proper (x >>= f) := by
  cases x with
  | ok a => exact hf a
  | error e => exact hx e rfl

theorem proper_bind_proper {x : Except ReadError (Pending σ)}
    {f : Pending σ → Except ReadError (Pending σ)} (hx : d.Proper x)
    (hf : ∀ p, p.arguments.length = d.creators.length → d.Proper (f p)) :
    d.Proper (x >>= f) := by
  cases x with
  | ok p => exact hf p hx
  | error e => exact hx

theorem ofDocument_of_decode {x : Except DecodeError (Option Value)} {e : ReadError}
    (h : x.mapError .value = .error e) : e.OfDocument := by
  cases x with
  | ok value => cases h
  | error cause =>
    cases h
    trivial

theorem ofDocument_of_decodeEntry {s : Settable σ} {value : Except Fault Json} {e : ReadError}
    (h : decodeEntry s r value = .error e) : e.OfDocument := by
  cases value with
  | error fault =>
    cases h
    trivial
  | ok j => exact ofDocument_of_decode h

theorem ofDocument_of_checkRest {s : Settable σ} {fault : Fault} {j : Json} {e : ReadError}
    (h : checkRest s r fault j = .error e) : e.OfDocument := by
  unfold checkRest at h
  split at h
  · cases h
    trivial
  · cases h

theorem ofDocument_of_checkEntryRest {s : Settable σ} {value : Except Fault Json} {e : ReadError}
    (h : checkEntryRest s r value = .error e) : e.OfDocument := by
  cases value with
  | error fault => cases h
  | ok j => exact ofDocument_of_checkRest h

theorem ofDocument_of_skipUnknown {name : String} {value : Except Fault Json} {e : ReadError}
    (h : d.skipUnknown name value = .error e) : e.OfDocument := by
  unfold skipUnknown at h
  grind [ReadError.OfDocument]

theorem ofDocument_of_finish {ending : Option Fault} {e : ReadError}
    (h : finish ending = .error e) : e.OfDocument := by
  cases ending with
  | none => cases h
  | some fault =>
    cases h
    trivial

theorem ofDocument_of_checkItemRest {s : Settable σ} {item : Item} {e : ReadError}
    (h : checkItemRest s r item = .error e) : e.OfDocument := by
  cases item with
  | error cause => cases h
  | ok j => exact ofDocument_of_checkRest h

theorem ofDocument_of_checkSurplus {room : Nat} {items : List Item} {ending : Option Fault}
    {e : ReadError} (h : checkSurplus room items ending = .error e) : e.OfDocument := by
  unfold checkSurplus at h
  split at h
  · exact ofDocument_of_finish h
  · split at h
    · cases h
      trivial
    · cases h
      trivial

theorem finish_eq_ok_iff {ending : Option Fault} : finish ending = .ok () ↔ ending = none := by
  cases ending with
  | none => simp [finish]
  | some fault => simp [finish]

/-! ## Any document -/

/-- Collects one entry. -/
def collectEntry (d : Deserializer σ) (r : Position) (e : Entry) (p : Pending σ) :
    Except ReadError (Pending σ) := do
  let name ← e.key
  match d.creator name with
  | some (position, s) => do
    let value ← decodeEntry s r e.value
    checkEntryRest s r e.value
    return p.argument (d.slotOf position) value
  | none =>
    match d.property name with
    | some s => do
      let value ← decodeEntry s r e.value
      checkEntryRest s r e.value
      return p.buffer s value
    | none => do
      d.skipUnknown name e.value
      return p

/-- The entries of a document are collected one after the other. -/
theorem collectEntries_eq_bind (ending : Option Fault) (e : Entry) (es : List Entry)
    (p : Pending σ) :
    d.collectEntries r ending (e :: es) p =
      d.collectEntry r e p >>= d.collectEntries r ending es := by
  rw [collectEntries, collectEntry]
  simp only [bind_assoc]
  congr 1
  funext name
  cases d.creator name with
  | some c => simp only [bind_assoc, pure_bind]
  | none =>
    cases d.property name with
    | some s => simp only [bind_assoc, pure_bind]
    | none => simp only [bind_assoc, pure_bind]

/-! ### What each step keeps -/

theorem decodes_of_decodeEntry {s : Settable σ} {value : Except Fault Json} {v : Option Value}
    (h : decodeEntry s r value = .ok v) : s.Decodes v := by
  cases value with
  | error fault => cases h
  | ok j => exact ⟨r, j, mapError_eq_ok_iff.mp h⟩

theorem decodes_of_decodeItem {s : Settable σ} {item : Item} {v : Option Value}
    (h : decodeItem s r item = .ok v) : s.Decodes v := by
  cases item with
  | error cause => cases h
  | ok j => exact ⟨r, j, mapError_eq_ok_iff.mp h⟩

section

variable {kept : Pending σ → Prop} {ending : Option Fault} {p q : Pending σ}

theorem collectEntry_keeps (hargument : ∀ slot value p, kept p → kept (p.argument slot value))
    (hbuffer : ∀ s ∈ d.properties, ∀ value, s.Decodes value → ∀ p, kept p →
      kept (p.buffer s value)) {e : Entry}
    (hp : kept p) (h : d.collectEntry r e p = .ok q) : kept q := by
  obtain ⟨name, -, h⟩ := bind_eq_ok_iff.mp h
  split at h
  · obtain ⟨value, -, h⟩ := bind_eq_ok_iff.mp h
    obtain ⟨-, -, h⟩ := bind_eq_ok_iff.mp h
    cases h
    exact hargument _ value p hp
  · split at h
    · rename_i s hs
      obtain ⟨value, hvalue, h⟩ := bind_eq_ok_iff.mp h
      obtain ⟨-, -, h⟩ := bind_eq_ok_iff.mp h
      cases h
      exact hbuffer s (mem_of_property hs) value (decodes_of_decodeEntry hvalue) p hp
    · obtain ⟨-, -, h⟩ := bind_eq_ok_iff.mp h
      cases h
      exact hp

/-- What each entry keeps is kept by a document. -/
theorem collectEntries_keeps
    (hstep : ∀ e p q, kept p → d.collectEntry r e p = .ok q → kept q) {es : List Entry}
    (hp : kept p) (h : d.collectEntries r ending es p = .ok q) : kept q := by
  induction es generalizing p with
  | nil =>
    obtain ⟨-, -, h⟩ := bind_eq_ok_iff.mp h
    cases h
    exact hp
  | cons e es ih =>
    rw [collectEntries_eq_bind] at h
    obtain ⟨next, hnext, hrest⟩ := bind_eq_ok_iff.mp h
    exact ih (hstep e p next hp hnext) hrest

/-- What each item keeps, whoever takes it, is kept by a list. -/
theorem collectItems_keeps {slots : List (Slot × Settable σ)}
    (hargument : ∀ position s, (.creator position, s) ∈ slots → ∀ value p, kept p →
      kept (p.argument (d.slotOf position) value))
    (hbuffer : ∀ index s, (.property index, s) ∈ slots → ∀ value, s.Decodes value → ∀ p,
      kept p → kept (p.buffer s value)) {items : List Item}
    (hp : kept p) (h : d.collectItems r ending slots items p = .ok q) : kept q := by
  induction slots generalizing items p with
  | nil =>
    rw [collectItems] at h
    obtain ⟨-, -, h⟩ := bind_eq_ok_iff.mp h
    cases h
    exact hp
  | cons e slots ih =>
    cases items with
    | nil =>
      rw [collectItems] at h
      obtain ⟨-, -, h⟩ := bind_eq_ok_iff.mp h
      cases h
      exact hp
    | cons item items =>
      obtain ⟨slot, s⟩ := e
      rw [collectItems] at h
      obtain ⟨value, hvalue, h⟩ := bind_eq_ok_iff.mp h
      obtain ⟨-, -, h⟩ := bind_eq_ok_iff.mp h
      have harguments := fun position s hs => hargument position s (List.mem_cons_of_mem _ hs)
      have hbuffers := fun index s hs => hbuffer index s (List.mem_cons_of_mem _ hs)
      cases slot with
      | creator position =>
        exact ih harguments hbuffers (hargument position s List.mem_cons_self value p hp) h
      | property index =>
        exact ih harguments hbuffers
          (hbuffer index s List.mem_cons_self value (decodes_of_decodeItem hvalue) p hp) h

end

/-! ### Errors of a document -/

theorem proper_collectEntry {e : Entry} (hkey : ∀ x, e.key = .error x → x.OfDocument)
    {p : Pending σ} (hp : p.arguments.length = d.creators.length) :
    d.Proper (d.collectEntry r e p) := by
  rw [collectEntry]
  refine proper_bind hkey fun name => ?_
  cases d.creator name with
  | some c =>
    refine proper_bind (fun _ => ofDocument_of_decodeEntry) fun value => ?_
    refine proper_bind (fun _ => ofDocument_of_checkEntryRest) fun _ => ?_
    show (p.arguments.set _ _).length = _
    rw [List.length_set, hp]
  | none =>
    cases d.property name with
    | some s =>
      refine proper_bind (fun _ => ofDocument_of_decodeEntry) fun value => ?_
      exact proper_bind (fun _ => ofDocument_of_checkEntryRest) fun _ => hp
    | none => exact proper_bind (fun _ => ofDocument_of_skipUnknown) fun _ => hp

/-- **Collecting entries keeps the slots, or finds fault with the document.** -/
theorem proper_collectEntries {ending : Option Fault} {es : List Entry}
    (hkeys : ∀ e ∈ es, ∀ x, e.key = .error x → x.OfDocument) {p : Pending σ}
    (hp : p.arguments.length = d.creators.length) :
    d.Proper (d.collectEntries r ending es p) := by
  induction es generalizing p with
  | nil => exact proper_bind (fun _ => ofDocument_of_finish) fun _ => hp
  | cons e es ih =>
    rw [collectEntries_eq_bind]
    refine proper_bind_proper (proper_collectEntry (hkeys e List.mem_cons_self) hp) ?_
    intro q hq
    exact ih (fun e' he' => hkeys e' (List.mem_cons_of_mem e he')) hq

/-- **Collecting items keeps the slots, or finds fault with the document.** -/
theorem proper_collectItems {ending : Option Fault} {slots : List (Slot × Settable σ)}
    {items : List Item} {p : Pending σ} (hp : p.arguments.length = d.creators.length) :
    d.Proper (d.collectItems r ending slots items p) := by
  induction slots generalizing items p with
  | nil =>
    rw [collectItems]
    exact proper_bind (fun _ => ofDocument_of_checkSurplus) fun _ => hp
  | cons e slots ih =>
    cases items with
    | nil =>
      rw [collectItems]
      exact proper_bind (fun _ => ofDocument_of_finish) fun _ => hp
    | cons item items =>
      obtain ⟨slot, s⟩ := e
      rw [collectItems]
      refine proper_bind (fun _ => ofDocument_of_decode) fun value => ?_
      refine proper_bind (fun _ => ofDocument_of_checkItemRest) fun _ => ?_
      cases slot with
      | creator position =>
        refine ih ?_
        show (p.arguments.set _ _).length = _
        rw [List.length_set, hp]
      | property index => exact ih hp

/-! ## A document that is accepted -/

/-- Who takes the value of a name while a bean is collected for. -/
def claimant (d : Deserializer σ) (name : String) : Option (Settable σ) :=
  (d.creator name).map (·.2) <|> d.property name

/-- All of the value of an entry is decoded, or the entry may be passed over. -/
def Accepts (d : Deserializer σ) (r : Position) (e : String × Json) : Prop :=
  match d.claimant e.1 with
  | some s => (∃ value, s.decoder.decode r e.2 = .ok value) ∧
      s.decoder.leavesRest r.mode e.2 = false
  | none => d.skipUnknown e.1 (.ok e.2) = .ok ()

/-- The value that a property or creator decodes, if it does, and it is not null. -/
def decoded (s : Settable σ) (r : Position) (j : Json) : Option Value :=
  (s.decoder.decode r j).toOption.join

/-- What an accepted entry leaves behind. -/
def keepEntry (d : Deserializer σ) (r : Position) (e : String × Json) (p : Pending σ) :
    Pending σ :=
  match d.creator e.1 with
  | some (position, s) => p.argument (d.slotOf position) (decoded s r e.2)
  | none =>
    match d.property e.1 with
    | some s => p.buffer s (decoded s r e.2)
    | none => p

theorem decodeEntry_whole {s : Settable σ} {j : Json} {value : Option Value}
    (hd : s.decoder.decode r j = .ok value) (hw : s.decoder.leavesRest r.mode j = false) :
    decodeEntry s r (.ok j) = .ok (decoded s r j) ∧ checkEntryRest s r (.ok j) = .ok () := by
  constructor
  · simp [decodeEntry, decoded, hd, Except.mapError, Except.toOption]
  · rw [checkEntryRest, checkRest, hw]
    rfl

theorem collectEntry_of_accepts {e : String × Json} (h : d.Accepts r e) (p : Pending σ) :
    d.collectEntry r ⟨.ok e.1, .ok e.2⟩ p = .ok (d.keepEntry r e p) := by
  unfold Accepts claimant at h
  cases hc : d.creator e.1 with
  | some c =>
    rw [hc] at h
    obtain ⟨⟨value, hvalue⟩, hwhole⟩ := h
    obtain ⟨hdecode, hcheck⟩ := decodeEntry_whole hvalue hwhole
    simp only [collectEntry, keepEntry, bind, Except.bind, hc, hdecode, hcheck]
    rfl
  | none =>
    cases hp : d.property e.1 with
    | some s =>
      rw [hc, hp] at h
      obtain ⟨⟨value, hvalue⟩, hwhole⟩ := h
      obtain ⟨hdecode, hcheck⟩ := decodeEntry_whole hvalue hwhole
      simp only [collectEntry, keepEntry, bind, Except.bind, hc, hp, hdecode, hcheck]
      rfl
    | none =>
      rw [hc, hp] at h
      have hskip : d.skipUnknown e.1 (.ok e.2) = .ok () := h
      simp only [collectEntry, keepEntry, bind, Except.bind, hc, hp, hskip]
      rfl

/-- What is collected has been accepted. -/
theorem accepts_of_collectEntry {e : String × Json} {p q : Pending σ}
    (h : d.collectEntry r ⟨.ok e.1, .ok e.2⟩ p = .ok q) : d.Accepts r e := by
  have htaken : ∀ s : Settable σ, ∀ value, decodeEntry s r (.ok e.2) = .ok value →
      checkEntryRest s r (.ok e.2) = .ok () →
        (∃ value, s.decoder.decode r e.2 = .ok value) ∧
          s.decoder.leavesRest r.mode e.2 = false := by
    intro s value hdecode hcheck
    refine ⟨⟨value, mapError_eq_ok_iff.mp hdecode⟩, ?_⟩
    simp only [checkEntryRest, checkRest] at hcheck
    split at hcheck
    · cases hcheck
    · rename_i hwhole
      simpa using hwhole
  unfold Accepts claimant
  obtain ⟨name, hname, h⟩ := bind_eq_ok_iff.mp h
  cases hname
  cases hc : d.creator e.1 with
  | some c =>
    simp only [hc] at h
    obtain ⟨value, hdecode, h⟩ := bind_eq_ok_iff.mp h
    obtain ⟨_, hcheck, -⟩ := bind_eq_ok_iff.mp h
    exact htaken c.2 value hdecode hcheck
  | none =>
    cases hp : d.property e.1 with
    | some s =>
      simp only [hc, hp] at h
      obtain ⟨value, hdecode, h⟩ := bind_eq_ok_iff.mp h
      obtain ⟨_, hcheck, -⟩ := bind_eq_ok_iff.mp h
      exact htaken s value hdecode hcheck
    | none =>
      simp only [hc, hp] at h
      obtain ⟨_, hskip, -⟩ := bind_eq_ok_iff.mp h
      exact hskip

/-- **A document is collected exactly if each of its entries is accepted.** -/
theorem collectEntries_eq_ok_iff {es : List (String × Json)} {p q : Pending σ} :
    d.collectEntries r none (es.map fun e => ⟨.ok e.1, .ok e.2⟩) p = .ok q ↔
      (∀ e ∈ es, d.Accepts r e) ∧ es.foldl (fun p e => d.keepEntry r e p) p = q := by
  induction es generalizing p with
  | nil =>
    show Except.ok p = _ ↔ _
    simp
  | cons e es ih =>
    rw [List.map_cons, collectEntries_eq_bind, bind_eq_ok_iff, List.foldl_cons,
      List.forall_mem_cons]
    constructor
    · rintro ⟨next, hnext, hrest⟩
      have haccepts := accepts_of_collectEntry hnext
      rw [collectEntry_of_accepts haccepts] at hnext
      cases hnext
      obtain ⟨hall, hfold⟩ := ih.mp hrest
      exact ⟨⟨haccepts, hall⟩, hfold⟩
    · rintro ⟨⟨haccepts, hall⟩, hfold⟩
      exact ⟨_, collectEntry_of_accepts haccepts p, ih.mpr ⟨hall, hfold⟩⟩

end Deserializer

/-! ## The slots of arguments -/

/-- The names of the arguments in documents. -/
def Introspection.argumentNames (i : Introspection σ) : List String :=
  i.arguments.map (·.externalName)

/-- The last value under a name. -/
def lastNamed (es : List (String × Json)) (name : String) : Option Json :=
  (es.filter fun e => e.1 = name).getLast?.map (·.2)

/-- The value that some entries have for an argument: the last under its name, unless null. -/
def Argument.valueIn (a : Argument) (r : Position) (es : List (String × Json)) : Option Value :=
  (lastNamed es a.externalName).bind fun j => (a.valueType.decode r j).toOption.join

theorem lastNamed_snoc (es : List (String × Json)) (e : String × Json) (name : String) :
    lastNamed (es ++ [e]) name = if e.1 = name then some e.2 else lastNamed es name := by
  unfold lastNamed
  rw [List.filter_append]
  by_cases h : e.1 = name
  · simp [h]
  · simp [h]

theorem mem_of_lastNamed {es : List (String × Json)} {name : String} {j : Json}
    (h : lastNamed es name = some j) : (name, j) ∈ es := by
  obtain ⟨e, he, rfl⟩ := Option.map_eq_some_iff.mp h
  obtain ⟨hmem, hname⟩ := List.mem_filter.mp (List.mem_of_getLast? he)
  rw [decide_eq_true_eq] at hname
  rw [← hname]
  exact hmem

theorem lastNamed_eq_none_iff {es : List (String × Json)} {name : String} :
    lastNamed es name = none ↔ name ∉ es.map (·.1) := by
  rw [lastNamed, Option.map_eq_none_iff, List.getLast?_eq_none_iff, List.filter_eq_nil_iff,
    List.mem_map]
  simp only [decide_eq_true_eq, not_exists, not_and]

/-- The values of a document that wait for the bean: those that no argument claims. -/
def Deserializer.waiting (d : Deserializer σ) (i : Introspection σ) (r : Position)
    (es : List (String × Json)) : List (Settable σ × Option Value) :=
  es.filterMap fun e =>
    if e.1 ∈ i.argumentNames then none
    else (d.property e.1).map fun s => (s, Deserializer.decoded s r e.2)

theorem Argument.valueIn_snoc (a : Argument) (r : Position) (es : List (String × Json))
    (e : String × Json) :
    a.valueIn r (es ++ [e]) = if e.1 = a.externalName then (a.valueType.decode r e.2).toOption.join
      else a.valueIn r es := by
  rw [valueIn, lastNamed_snoc]
  split
  · rfl
  · rfl

theorem Deserializer.waiting_snoc (d : Deserializer σ) (i : Introspection σ) (r : Position)
    (es : List (String × Json)) (e : String × Json) :
    d.waiting i r (es ++ [e]) = d.waiting i r es ++ (if e.1 ∈ i.argumentNames then []
      else ((d.property e.1).map fun s => (s, Deserializer.decoded s r e.2)).toList) := by
  rw [waiting, waiting, List.filterMap_append]
  congr 1
  by_cases hname : e.1 ∈ i.argumentNames
  · simp [hname]
  · cases hp : d.property e.1 with
    | none => simp [hname, hp]
    | some s => simp [hname, hp]

/-- What some entries have left behind. -/
def Deserializer.gathered (d : Deserializer σ) (i : Introspection σ) (r : Position)
    (es : List (String × Json)) : Deserializer.Pending σ where
  arguments := i.arguments.map (·.valueIn r es)
  present := i.arguments.map fun a => decide (a.externalName ∈ es.map (·.1))
  buffered := d.waiting i r es

namespace Deserializer

variable {d : Deserializer σ} {i : Introspection σ} {r : Position}

/-- Changing what one argument has is changing what stands under its name. -/
theorem set_arguments {α : Type} (hnodup : i.argumentNames.Nodup) {k : Nat} {a : Argument}
    (hk : i.arguments[k]? = some a) (f g : Argument → α)
    (hfg : ∀ b, b.externalName ≠ a.externalName → f b = g b) :
    (i.arguments.map f).set k (g a) = i.arguments.map g := by
  have hlt : k < i.arguments.length := (List.getElem?_eq_some_iff.mp hk).1
  apply List.ext_getElem?
  intro l
  rw [List.getElem?_set]
  split
  · rename_i heq
    subst heq
    rw [if_pos (by rw [List.length_map]; exact hlt), List.getElem?_map, hk]
    rfl
  · rename_i hne
    rw [List.getElem?_map, List.getElem?_map]
    cases hl : i.arguments[l]? with
    | none => rfl
    | some b =>
      -- another place holds an argument of another name
      refine congrArg some (hfg b fun hname => hne ?_)
      refine (List.getElem?_inj (by rw [Introspection.argumentNames, List.length_map]; exact hlt)
        hnodup).mp ?_
      rw [Introspection.argumentNames, List.getElem?_map, List.getElem?_map, hk, hl,
        Option.map_some, Option.map_some, hname]

namespace Gathers

theorem argumentNames (h : d.Gathers i) : i.argumentNames.Nodup := by
  have hnames := h.indexed.creatorNames
  rw [h.creators, List.map_map] at hnames
  exact hnames

/-- A value goes to the creator of its name, if there is one. -/
theorem creator_eq_some (h : d.Gathers i) {k : Nat} {a : Argument}
    (hk : i.arguments[k]? = some a) :
    d.creator a.externalName = some (k, .creator i a) := by
  refine h.indexed.creator_eq_some_iff.mpr ⟨?_, rfl⟩
  rw [h.creators, List.getElem?_map, hk]
  rfl

theorem creator_eq_none (h : d.Gathers i) {name : String} (hn : name ∉ i.argumentNames) :
    d.creator name = none := by
  refine h.indexed.creator_eq_none_iff.mpr ?_
  intro s hs
  rw [h.creators] at hs
  obtain ⟨a, ha, rfl⟩ := List.mem_map.mp hs
  exact fun hname => hn (hname ▸ List.mem_map_of_mem ha)

theorem pending_eq (h : d.Gathers i) : d.pending = d.gathered i r [] := by
  simp [pending, gathered, waiting, Argument.valueIn, lastNamed, h.creators, List.map_const']

/-- An entry of the name of an argument changes what is in its slot, and nothing else. -/
theorem gathered_snoc_claimed (h : d.Gathers i) {k : Nat} {a : Argument}
    (hk : i.arguments[k]? = some a) {e : String × Json} (ha : a.externalName = e.1)
    (es : List (String × Json)) :
    d.gathered i r (es ++ [e]) = (d.gathered i r es).argument k (decoded (.creator i a) r e.2) := by
  have hname : e.1 ∈ i.argumentNames := ha ▸ List.mem_map_of_mem (List.mem_of_getElem? hk)
  -- names of arguments are distinct, so the entry says nothing about another argument
  have hothers : ∀ b : Argument, b.externalName ≠ a.externalName → e.1 ≠ b.externalName :=
    fun b hb hbe => hb (hbe.symm.trans ha.symm)
  have harguments := set_arguments h.argumentNames hk (fun b => b.valueIn r es)
    (fun b => b.valueIn r (es ++ [e])) fun b hb => by
      rw [Argument.valueIn_snoc, if_neg (hothers b hb)]
  have hpresent := set_arguments h.argumentNames hk
    (fun b => decide (b.externalName ∈ es.map (·.1)))
    (fun b => decide (b.externalName ∈ (es ++ [e]).map (·.1))) fun b hb => by
      simp [(hothers b hb).symm]
  rw [Argument.valueIn_snoc, if_pos ha.symm] at harguments
  have hmem : decide (a.externalName ∈ (es ++ [e]).map (·.1)) = true := by simp [ha]
  rw [hmem] at hpresent
  simp only [gathered, waiting_snoc, if_pos hname, List.append_nil, ← harguments, ← hpresent]
  rfl

/-- An entry of another name changes no slot, and its value waits if there is a property for it. -/
theorem gathered_snoc_unclaimed {e : String × Json} (hname : e.1 ∉ i.argumentNames)
    (es : List (String × Json)) :
    d.gathered i r (es ++ [e]) = { d.gathered i r es with
      buffered := d.waiting i r es ++
        ((d.property e.1).map fun s => (s, decoded s r e.2)).toList } := by
  have hne : ∀ a ∈ i.arguments, e.1 ≠ a.externalName :=
    fun a ha hae => hname (hae ▸ List.mem_map_of_mem ha)
  have harguments : i.arguments.map (·.valueIn r (es ++ [e])) =
      i.arguments.map (·.valueIn r es) := by
    refine List.map_congr_left fun a ha => ?_
    rw [Argument.valueIn_snoc, if_neg (hne a ha)]
  have hpresent : (i.arguments.map fun a => decide (a.externalName ∈ (es ++ [e]).map (·.1))) =
      i.arguments.map fun a => decide (a.externalName ∈ es.map (·.1)) := by
    refine List.map_congr_left fun a ha => ?_
    simp [(hne a ha).symm]
  simp only [gathered, waiting_snoc, if_neg hname, harguments, hpresent]

/-- **One entry more is one value more**, in a slot or behind those that wait. -/
theorem keepEntry_gathered (h : d.Gathers i) (e : String × Json) (es : List (String × Json)) :
    d.keepEntry r e (d.gathered i r es) = d.gathered i r (es ++ [e]) := by
  rw [keepEntry]
  by_cases hname : e.1 ∈ i.argumentNames
  · obtain ⟨a, ham, ha⟩ := List.mem_map.mp hname
    obtain ⟨k, hk⟩ := List.mem_iff_getElem?.mp ham
    have hcreator := h.creator_eq_some hk
    rw [ha] at hcreator
    rw [hcreator, gathered_snoc_claimed h hk ha]
    dsimp only
    rw [h.slotOf k (List.getElem?_eq_some_iff.mp hk).1]
  · rw [h.creator_eq_none hname, gathered_snoc_unclaimed hname]
    cases d.property e.1 with
    | none =>
      dsimp only
      rw [Option.map_none, Option.toList_none, List.append_nil]
      rfl
    | some s => rfl

theorem foldl_keepEntry (h : d.Gathers i) (es before : List (String × Json)) :
    es.foldl (fun p e => d.keepEntry r e p) (d.gathered i r before) =
      d.gathered i r (before ++ es) := by
  induction es generalizing before with
  | nil => rw [List.foldl_nil, List.append_nil]
  | cons e es ih => rw [List.foldl_cons, h.keepEntry_gathered, ih, List.append_assoc]; rfl

/-- **An accepted document leaves behind what can be read off it.** -/
theorem collectEntries_gathered (h : d.Gathers i) {es : List (String × Json)}
    (hes : ∀ e ∈ es, d.Accepts r e) :
    d.collectEntries r none (es.map fun e => ⟨.ok e.1, .ok e.2⟩) d.pending =
      .ok (d.gathered i r es) := by
  refine collectEntries_eq_ok_iff.mpr ⟨hes, ?_⟩
  rw [h.pending_eq, h.foldl_keepEntry, List.nil_append]

end Gathers

end Deserializer

/-! ## Completing -/

/-- The first argument that is required and is not among some names. -/
def Introspection.firstMissing (i : Introspection σ) (names : List String) : Option Argument :=
  i.arguments.find? fun a =>
    a.annotations.metadata.required && decide (a.externalName ∉ names)

theorem Introspection.firstMissing_eq_none_iff {i : Introspection σ} {names : List String} :
    i.firstMissing names = none ↔
      ∀ a ∈ i.arguments, a.annotations.metadata.required = true → a.externalName ∈ names := by
  simp [firstMissing, List.find?_eq_none]

/-- What is found with its position is found without. -/
theorem find?_zipIdx {α : Type} {xs : List α} {start : Nat} {f : α × Nat → Bool} {g : α → Bool}
    (h : ∀ k x, xs[k]? = some x → f (x, start + k) = g x) :
    ((xs.zipIdx start).find? f).map (·.1) = xs.find? g := by
  induction xs generalizing start with
  | nil => rfl
  | cons x xs ih =>
    have hx : f (x, start) = g x := h 0 x rfl
    have hrest : ((xs.zipIdx (start + 1)).find? f).map (·.1) = xs.find? g := by
      refine ih fun k y hy => ?_
      have hfg := h (k + 1) y hy
      rwa [← Nat.add_assoc, Nat.add_right_comm] at hfg
    rw [List.zipIdx_cons, List.find?_cons, List.find?_cons, hx]
    cases g x with
    | true => rfl
    | false => exact hrest

namespace Deserializer

variable {d : Deserializer σ} {i : Introspection σ} {p : Pending σ} {names : List String}

/-- Creators are missing as the arguments are, in the order of the arguments. -/
theorem Gathers.firstMissing_eq (h : d.Gathers i)
    (hp : p.present = i.arguments.map fun a => decide (a.externalName ∈ names)) :
    d.firstMissing p = (i.firstMissing names).map (.creator i) := by
  rw [firstMissing, h.creators]
  refine (find?_zipIdx (g := fun s => s.metadata.required && decide (s.name ∉ names))
    fun k s hk => ?_).trans ?_
  · rw [List.getElem?_map, Option.map_eq_some_iff] at hk
    obtain ⟨a, ha, rfl⟩ := hk
    have hpresent : p.present[d.slotOf k]? = some (decide (a.externalName ∈ names)) := by
      rw [h.slotOf k (List.getElem?_eq_some_iff.mp ha).1, hp, List.getElem?_map, ha]
      rfl
    dsimp only
    rw [Nat.zero_add, hpresent, Option.getD_some, decide_not]
    rfl
  · rw [List.find?_map]
    rfl

/-- Collected values go to the constructor unless an argument is missing, and then to the bean. -/
theorem MakesBy.complete_eq (h : d.MakesBy i)
    (hp : p.present = i.arguments.map fun a => decide (a.externalName ∈ names)) :
    d.complete p =
      match i.firstMissing names with
      | some a => .error (.codec (.missingProperty d.bean.name a.externalName))
      | none => fill ((i.instantiateWith p.arguments).mapError fun e =>
          .codec (.instantiation d.bean.name e)) (d.setAll p.buffered) := by
  rw [complete, h.firstMissing_eq hp, h.instantiator]
  cases i.firstMissing names with
  | some a => rfl
  | none => rfl

end Deserializer

end BeanBinding
