import BeanBinding.Proofs.Writing
import Mathlib.Data.List.Forall2

/-!
# What is decoded has the declared shape

A schema says how to decode, and it says which trees are values of the type: `Admits`. The
first is a program, the second a relation with one rule for each kind of type. They fit
together: whatever document a decoder is given, in either mode, what it yields is admitted
(`WellFormed.yields`). So are the values that literals spell (`admits_of_ofLiteral`).

Each way to compose decoders has its own lemma, which asks of the parts what it says of the
whole. Records are the one place where something is asked of the type itself: a field must
be found by its name, and a default must be a value of its field.
-/

namespace BeanBinding

/-- The types that an alternative carries values of. -/
def Payload.parts {α : Type} : Payload α → List α
  | .nothing => []
  | .single s => [s]
  | .several ss => ss
  | .named fields => fields.map Prod.snd

namespace Schema

/-! ## Trees of a declared type -/

/-- A tree that is a value of a declared type. -/
inductive Admits : Schema → Tree → Prop where
  | bool (b : Bool) : Admits .bool (.bool b)
  | int {kind : IntKind} {n : Int} (h : kind.holds n = true) : Admits (.int kind) (.int kind n)
  | float (x : Float) : Admits .float (.float x)
  | char (c : Char) : Admits .char (.char c)
  | text (s : String) : Admits .text (.text s)
  | unit : Admits .unit .unit
  | absent (s : Schema) : Admits (.optional s) .absent
  | present {s : Schema} {t : Tree} (h : Admits s t) : Admits (.optional s) (.present t)
  | seq {s : Schema} {ts : List Tree} (h : ∀ t ∈ ts, Admits s t) : Admits (.seq s) (.seq ts)
  | map {s : Schema} {es : List (String × Tree)} (hkeys : (es.map Prod.fst).Pairwise (· < ·))
      (h : ∀ e ∈ es, Admits s e.2) :
      Admits (.map s) (.map (es.map fun (key, t) => (.text key, t)))
  | tuple {ss : List Schema} {ts : List Tree} (h : List.Forall₂ Admits ss ts) :
      Admits (.tuple ss) (.tuple ts)
  | newtype (name : String) {s : Schema} {t : Tree} (h : Admits s t) :
      Admits (.newtype name s) (.newtypeStruct t)
  | record (name : String) {fields : List (String × Schema)} (defaults : List (String × Tree))
      {values : List (String × Tree)} (hnames : values.map Prod.fst = fields.map Prod.fst)
      (h : List.Forall₂ Admits (fields.map Prod.snd) (values.map Prod.snd)) :
      Admits (.record name fields defaults) (.record values)
  | unitVariant (name : String) {variants : List (Variant Schema)} {v : Variant Schema}
      (hv : v ∈ variants) (hp : v.payload = .nothing) :
      Admits (.enumeration name variants) (.unitVariant v.written)
  | newtypeVariant (name : String) {variants : List (Variant Schema)} {v : Variant Schema}
      (hv : v ∈ variants) {s : Schema} (hp : v.payload = .single s) {t : Tree}
      (h : Admits s t) : Admits (.enumeration name variants) (.newtypeVariant v.written t)
  | tupleVariant (name : String) {variants : List (Variant Schema)} {v : Variant Schema}
      (hv : v ∈ variants) {ss : List Schema} (hp : v.payload = .several ss) {ts : List Tree}
      (h : List.Forall₂ Admits ss ts) :
      Admits (.enumeration name variants) (.tupleVariant v.written ts)
  | recordVariant (name : String) {variants : List (Variant Schema)} {v : Variant Schema}
      (hv : v ∈ variants) {fields : List (String × Schema)} (hp : v.payload = .named fields)
      {values : List (String × Tree)} (hnames : values.map Prod.fst = fields.map Prod.fst)
      (h : List.Forall₂ Admits (fields.map Prod.snd) (values.map Prod.snd)) :
      Admits (.enumeration name variants) (.recordVariant v.written values)
  | any (t : Tree) : Admits .any t
  /-- A closed type does not say what its values are; no document gives one. -/
  | closed (reason shown : String) (t : Tree) : Admits (.closed reason shown) t

/-- A value for each field, in declared order. -/
def AdmitsFields (fields : List (String × Schema)) (values : List (String × Tree)) : Prop :=
  values.map Prod.fst = fields.map Prod.fst ∧
    List.Forall₂ Admits (fields.map Prod.snd) (values.map Prod.snd)

/-- Whatever is named like a field is a value of it. -/
def FitsFields (fields : List (String × Schema)) (values : List (String × Tree)) : Prop :=
  ∀ name s t, (name, s) ∈ fields → values.lookup name = some t → s.Admits t

/-! ## Declared types that make sense -/

/-- The types that a type is made of. -/
def parts : Schema → List Schema
  | .optional s | .seq s | .map s | .newtype _ s => [s]
  | .tuple ss => ss
  | .record _ fields _ => fields.map Prod.snd
  | .enumeration _ variants => variants.flatMap fun v => v.payload.parts
  | _ => []

/-- Fields are named apart, and a default is a value of its field. -/
def Coherent : Schema → Prop
  | .record _ fields defaults => (fields.map Prod.fst).Nodup ∧ FitsFields fields defaults
  | .enumeration _ variants =>
    ∀ v ∈ variants, ∀ fields, v.payload = .named fields → (fields.map Prod.fst).Nodup
  | _ => True

/-- A type that is coherent, down to its smallest parts. -/
inductive WellFormed : Schema → Prop where
  | of {s : Schema} (hs : s.Coherent) (hparts : ∀ part ∈ s.parts, WellFormed part) : WellFormed s

variable {s : Schema} {fields : List (String × Schema)} {values : List (String × Tree)}

theorem admitsFields_nil : AdmitsFields [] [] := ⟨rfl, .nil⟩

theorem AdmitsFields.cons {name : String} {t : Tree} (ht : s.Admits t)
    (h : AdmitsFields fields values) : AdmitsFields ((name, s) :: fields) ((name, t) :: values) :=
  ⟨by simp only [List.map_cons, h.1], .cons ht h.2⟩

theorem fitsFields_nil : FitsFields fields [] := by
  intro name s t _ h
  cases h

/-- Where fields are named apart, a value that is added need only fit the field of its name. -/
theorem FitsFields.cons (hnames : (fields.map Prod.fst).Nodup) {name : String} {t : Tree}
    (hs : (name, s) ∈ fields) (ht : s.Admits t) (h : FitsFields fields values) :
    FitsFields fields ((name, t) :: values) := by
  intro name' s' t' hs' hlookup
  rw [List.lookup_cons] at hlookup
  cases heq : name' == name with
  | true =>
    rw [heq] at hlookup
    cases hlookup
    obtain rfl := eq_of_beq heq
    have hpair := List.inj_on_of_nodup_map hnames hs' hs rfl
    rw [(Prod.mk.inj hpair).2]
    exact ht
  | false =>
    rw [heq] at hlookup
    exact h name' s' t' hs' hlookup

theorem FitsFields.tail {field : String × Schema} (h : FitsFields (field :: fields) values) :
    FitsFields fields values :=
  fun name s t hs => h name s t (List.mem_cons_of_mem _ hs)

end Schema

/-! ## Decoders that yield values of a type -/

namespace Decoder

/-- Whatever the decoder is given, it yields values of the type or nothing. -/
def Yields (d : TreeDecoder) (s : Schema) : Prop := ∀ r j t, d.decode r j = .ok t → s.Admits t

/-- Decoders of fields, which are named like them. -/
def YieldsFields (ds : List (String × TreeDecoder)) (fields : List (String × Schema)) : Prop :=
  List.Forall₂ (fun d f => d.1 = f.1 ∧ d.2.Yields f.2) ds fields

/-- What is decoded in front of a reader who reads on has been read to its end. -/
theorem decodeBefore_eq_ok_iff {d : TreeDecoder} {fault : Fault} {r : Position} {j : Json}
    {t : Tree} :
    d.decodeBefore fault r j = .ok t ↔ d.decode r j = .ok t ∧ d.leavesRest r.mode j = false := by
  rw [decodeBefore, bind_eq_ok_iff]
  cases d.leavesRest r.mode j with
  | true => simp [rejectFault, bind, Except.bind]
  | false => simp [rejectFault, bind, Except.bind, pure, Except.pure]

-- the half of one and a half is left by an integer and an optional integer; a list meets it
example :
    let half : Json := .number ⟨false, ['1'], ['5'], none⟩
    let r : Position := .start .streamed
    let s : Schema := .optional (.int .i128)
    s.decode r half = .ok (.present (.int .i128 1)) ∧ s.leavesRest r.mode half = true ∧
      (Schema.seq s).decode r (.list [half]) = .error (.fault .noListSeparator) :=
  ⟨rfl, rfl, rfl⟩

/-! ### Scalars -/

theorem yields_bool : Yields bool .bool := by
  intro r j t h
  unfold bool whole at h
  dsimp only at h
  split at h
  · cases h
    exact .bool _
  · cases h

theorem admits_of_ofInteger {kind : IntKind} {n : Int} {t : Tree}
    (h : kind.ofInteger n = .ok t) : (Schema.int kind).Admits t := by
  unfold IntKind.ofInteger at h
  split at h
  · rename_i hholds
    cases h
    exact .int hholds
  · cases h

theorem admits_of_ofNumber {kind : IntKind} {n : Json.Number} {t : Tree}
    (h : kind.ofNumber n = .ok t) : (Schema.int kind).Admits t := by
  unfold IntKind.ofNumber at h
  split at h
  · cases h
  · cases h
  · exact admits_of_ofInteger h
  · exact admits_of_ofInteger h

theorem admits_of_ofDigits {kind : IntKind} {negative : Bool} {digits : List Char} {t : Tree}
    (h : kind.ofDigits negative digits = .ok t) : (Schema.int kind).Admits t := by
  unfold IntKind.ofDigits at h
  dsimp only at h
  generalize (if negative = true then -(Nat.ofDigitChars 10 digits 0 : Int)
    else (Nat.ofDigitChars 10 digits 0 : Int)) = n at h
  split at h
  · cases h
  · rename_i hrange
    cases h
    refine .int ?_
    simp only [Bool.or_eq_true, Bool.not_eq_true', not_or, Bool.not_eq_false] at hrange
    exact hrange.2

/-- Every integer that is decoded is one that the type holds, whatever its width. -/
theorem yields_int (kind : IntKind) : Yields (int kind) (.int kind) := by
  intro r j t h
  unfold int at h
  dsimp only at h
  split at h
  · unfold IntKind.ofLeadingDigits at h
    split at h
    · exact admits_of_ofDigits h
    · exact admits_of_ofDigits h
    · cases h
    · cases h
    · cases h
  · split at h
    · exact admits_of_ofNumber h
    · cases h

theorem yields_float : Yields float .float := by
  intro r j t h
  unfold float whole at h
  dsimp only at h
  split at h
  · split at h
    · cases h
    all_goals
      cases h
      exact .float _
  · cases h

theorem yields_char : Yields char .char := by
  intro r j t h
  unfold char whole at h
  dsimp only at h
  split at h
  · split at h
    · cases h
      exact .char _
    · cases h
  · cases h

theorem yields_text : Yields text .text := by
  intro r j t h
  unfold text whole at h
  dsimp only at h
  split at h
  · cases h
    exact .text _
  · cases h

theorem yields_unit : Yields unit .unit := by
  intro r j t h
  unfold unit whole at h
  dsimp only at h
  split at h
  · cases h
    exact .unit
  · cases h

/-! ### Wrappers and containers -/

variable {d : TreeDecoder} {s : Schema}

theorem Yields.admits_of_decodeBefore (hd : d.Yields s) {fault : Fault} {r : Position} {j : Json}
    {t : Tree} (h : d.decodeBefore fault r j = .ok t) : s.Admits t :=
  hd r j t (decodeBefore_eq_ok_iff.mp h).1

theorem Yields.optional (hd : d.Yields s) : (optional d).Yields (.optional s) := by
  intro r j t h
  unfold Decoder.optional at h
  dsimp only at h
  split at h
  · cases h
    exact .absent s
  · cases h
  · obtain ⟨t', ht', rfl⟩ := map_eq_ok_iff.mp h
    exact .present (hd r _ t' ht')

theorem Yields.newtype (hd : d.Yields s) (name : String) :
    (newtype d).Yields (.newtype name s) := by
  intro r j t h
  obtain ⟨t', ht', rfl⟩ := map_eq_ok_iff.mp h
  exact .newtype name (hd r j t' ht')

theorem Yields.admits_of_mapM (hd : d.Yields s) {fault : Fault} {r : Position}
    {items : List Json} {ts : List Tree} (h : items.mapM (d.decodeBefore fault r) = .ok ts) :
    ∀ t ∈ ts, s.Admits t := by
  induction items generalizing ts with
  | nil =>
    rw [List.mapM_nil] at h
    cases h
    intro t ht
    cases ht
  | cons item items ih =>
    rw [List.mapM_cons] at h
    obtain ⟨t, ht, h⟩ := bind_eq_ok_iff.mp h
    obtain ⟨ts', hts', h⟩ := bind_eq_ok_iff.mp h
    cases h
    exact List.forall_mem_cons.mpr ⟨hd.admits_of_decodeBefore ht, ih hts'⟩

theorem Yields.seq (hd : d.Yields s) : (seq d).Yields (.seq s) := by
  intro r j t h
  unfold Decoder.seq whole at h
  dsimp only at h
  split at h
  · obtain ⟨inner, -, h⟩ := bind_eq_ok_iff.mp h
    obtain ⟨ts, hts, h⟩ := bind_eq_ok_iff.mp h
    obtain ⟨_, -, h⟩ := bind_eq_ok_iff.mp h
    cases h
    exact .seq (hd.admits_of_mapM hts)
  · cases h

theorem mem_insertSorted {key : String} {t : Tree} {es : List (String × Tree)}
    {e : String × Tree} (h : e ∈ insertSorted key t es) : e = (key, t) ∨ e ∈ es := by
  induction es with
  | nil => exact .inl (List.mem_singleton.mp h)
  | cons e' es ih =>
    rw [insertSorted] at h
    grind

/-- An entry that is sorted in goes where its key belongs. -/
theorem pairwise_insertSorted {key : String} {t : Tree} {es : List (String × Tree)}
    (h : (es.map Prod.fst).Pairwise (· < ·)) :
    ((insertSorted key t es).map Prod.fst).Pairwise (· < ·) := by
  induction es with
  | nil => exact List.pairwise_singleton _ _
  | cons e es ih =>
    obtain ⟨k, v⟩ := e
    rw [List.map_cons, List.pairwise_cons] at h
    rw [insertSorted]
    by_cases hless : key < k
    · rw [if_pos hless]
      refine List.pairwise_cons.mpr ⟨?_, List.pairwise_cons.mpr h⟩
      intro k' hk'
      rcases List.mem_cons.mp hk' with rfl | hk'
      · exact hless
      · exact String.lt_trans hless (h.1 k' hk')
    · rw [if_neg hless]
      by_cases hsame : key = k
      · rw [if_pos hsame, hsame]
        exact List.pairwise_cons.mpr h
      · have hgreater : k < key := by grind
        rw [if_neg hsame]
        refine List.pairwise_cons.mpr ⟨?_, ih h.2⟩
        intro k' hk'
        obtain ⟨e, he, rfl⟩ := List.mem_map.mp hk'
        rcases mem_insertSorted he with rfl | he
        · exact hgreater
        · exact h.1 e.1 (List.mem_map_of_mem he)

theorem Yields.admits_of_sortedEntries (hd : d.Yields s) {r : Position}
    {entries : List (Json.Key × Json)} {es sorted : List (String × Tree)}
    (hes : (es.map Prod.fst).Pairwise (· < ·) ∧ ∀ e ∈ es, s.Admits e.2)
    (h : sortedEntries d r entries es = .ok sorted) :
    (sorted.map Prod.fst).Pairwise (· < ·) ∧ ∀ e ∈ sorted, s.Admits e.2 := by
  induction entries generalizing es with
  | nil =>
    cases h
    exact hes
  | cons entry entries ih =>
    obtain ⟨key, value⟩ := entry
    cases key with
    | name key =>
      rw [sortedEntries] at h
      obtain ⟨_, -, h⟩ := bind_eq_ok_iff.mp h
      obtain ⟨t, ht, h⟩ := bind_eq_ok_iff.mp h
      refine ih ⟨pairwise_insertSorted hes.1, ?_⟩ h
      intro e he
      rcases mem_insertSorted he with rfl | he
      · exact hd.admits_of_decodeBefore ht
      · exact hes.2 e he
    | misplaced | broken => cases h

theorem Yields.map (hd : d.Yields s) : (map d).Yields (.map s) := by
  intro r j t h
  unfold Decoder.map whole at h
  dsimp only at h
  split at h
  · obtain ⟨inner, -, h⟩ := bind_eq_ok_iff.mp h
    obtain ⟨es, hes, h⟩ := bind_eq_ok_iff.mp h
    obtain ⟨_, -, h⟩ := bind_eq_ok_iff.mp h
    cases h
    obtain ⟨hkeys, hvalues⟩ :=
      hd.admits_of_sortedEntries ⟨.nil, fun e he => by cases he⟩ hes
    exact .map hkeys hvalues
  · cases h

/-! ### Tuples -/

variable {ds : List TreeDecoder} {ss : List Schema}

theorem admits_of_positions (hds : List.Forall₂ Yields ds ss) {r : Position} {expected : String}
    {ending : Json.Ending} {n : Nat} {items : List Json} {ts : List Tree}
    (h : positions r expected ending n ds items = .ok ts) : List.Forall₂ Schema.Admits ss ts := by
  induction hds generalizing n items ts with
  | nil =>
    cases h
    exact .nil
  | cons hd _ ih =>
    cases items with
    | nil => cases h
    | cons item items =>
      rw [positions] at h
      obtain ⟨t, ht, h⟩ := bind_eq_ok_iff.mp h
      obtain ⟨ts', hts', h⟩ := bind_eq_ok_iff.mp h
      cases h
      exact .cons (hd.admits_of_decodeBefore ht) (ih hts')

theorem yields_tuple (hds : List.Forall₂ Yields ds ss) : (tuple ds).Yields (.tuple ss) := by
  intro r j t h
  unfold tuple whole at h
  dsimp only at h
  split at h
  · obtain ⟨inner, -, h⟩ := bind_eq_ok_iff.mp h
    obtain ⟨ts, hts, h⟩ := bind_eq_ok_iff.mp h
    obtain ⟨_, -, h⟩ := bind_eq_ok_iff.mp h
    cases h
    exact .tuple (admits_of_positions hds hts)
  · cases h

/-! ### Records -/

section Fields

variable {fs : List (String × TreeDecoder)} {fields : List (String × Schema)}
  {defaults : List (String × Tree)}

theorem YieldsFields.names (h : YieldsFields fs fields) :
    fs.map Prod.fst = fields.map Prod.fst := by
  induction h with
  | nil => rfl
  | cons hd _ ih => rw [List.map_cons, List.map_cons, hd.1, ih]

/-- The decoder that is found under a name is that of a field. -/
theorem YieldsFields.exists_of_lookup (h : YieldsFields fs fields) {name : String} {d : TreeDecoder}
    (hd : fs.lookup name = some d) : ∃ s, (name, s) ∈ fields ∧ d.Yields s := by
  induction h with
  | nil => cases hd
  | @cons f field fs fields hf _ ih =>
    obtain ⟨name', d'⟩ := f
    rw [List.lookup_cons] at hd
    cases heq : name == name' with
    | true =>
      rw [heq] at hd
      cases hd
      obtain rfl := eq_of_beq heq
      obtain ⟨rfl, hyields⟩ := hf
      exact ⟨field.2, List.mem_cons_self, hyields⟩
    | false =>
      rw [heq] at hd
      obtain ⟨s, hs, hyields⟩ := ih hd
      exact ⟨s, List.mem_cons_of_mem _ hs, hyields⟩

theorem YieldsFields.admits_of_fieldPositions (h : YieldsFields fs fields)
    (hdefaults : Schema.FitsFields fields defaults) {r : Position} {expected : String}
    {ending : Json.Ending} {n : Nat} {items : List Json} {values : List (String × Tree)}
    (hvalues : fieldPositions r expected defaults ending n fs items = .ok values) :
    Schema.AdmitsFields fields values := by
  induction h generalizing n items values with
  | nil =>
    cases hvalues
    exact Schema.admitsFields_nil
  | @cons f field fs fields hf _ ih =>
    obtain ⟨name, d⟩ := f
    obtain ⟨name', s⟩ := field
    obtain ⟨rfl, hyields⟩ := hf
    cases items with
    | nil =>
      rw [fieldPositions] at hvalues
      split at hvalues
      · cases hvalues
      · cases hvalues
      · rename_i t _ ht
        obtain ⟨rest, hrest, hvalues⟩ := bind_eq_ok_iff.mp hvalues
        cases hvalues
        exact (ih hdefaults.tail hrest).cons (hdefaults name s t List.mem_cons_self ht)
    | cons item items =>
      rw [fieldPositions] at hvalues
      obtain ⟨t, ht, hvalues⟩ := bind_eq_ok_iff.mp hvalues
      obtain ⟨rest, hrest, hvalues⟩ := bind_eq_ok_iff.mp hvalues
      cases hvalues
      exact (ih hdefaults.tail hrest).cons (hyields.admits_of_decodeBefore ht)

/-- Each entry that is taken fits the field of its name. -/
theorem YieldsFields.fits_of_fieldEntries (h : YieldsFields fs fields)
    (hnames : (fields.map Prod.fst).Nodup) {r : Position} {entries : List (Json.Key × Json)}
    {found found' : List (String × Tree)} (hfound : Schema.FitsFields fields found)
    (hentries : fieldEntries r fs entries found = .ok found') :
    Schema.FitsFields fields found' := by
  induction entries generalizing found with
  | nil =>
    cases hentries
    exact hfound
  | cons entry entries ih =>
    obtain ⟨key, value⟩ := entry
    cases key with
    | name key =>
      rw [fieldEntries] at hentries
      split at hentries
      · rename_i d hd
        split at hentries
        · cases hentries
        · obtain ⟨_, -, hentries⟩ := bind_eq_ok_iff.mp hentries
          obtain ⟨t, ht, hentries⟩ := bind_eq_ok_iff.mp hentries
          obtain ⟨s, hs, hyields⟩ := h.exists_of_lookup hd
          exact ih (hfound.cons hnames hs (hyields.admits_of_decodeBefore ht)) hentries
      · obtain ⟨_, -, hentries⟩ := bind_eq_ok_iff.mp hentries
        exact ih hfound hentries
    | misplaced | broken => cases hentries

/-- What was found, and the defaults for the rest, make up all fields. -/
theorem admits_of_collectFields {found values : List (String × Tree)}
    (hdefaults : Schema.FitsFields fields defaults) (hfound : Schema.FitsFields fields found)
    (h : collectFields defaults found (fields.map Prod.fst) = .ok values) :
    Schema.AdmitsFields fields values := by
  induction fields generalizing values with
  | nil =>
    cases h
    exact Schema.admitsFields_nil
  | cons field fields ih =>
    obtain ⟨name, s⟩ := field
    rw [List.map_cons, collectFields] at h
    split at h
    · rename_i t ht
      obtain ⟨rest, hrest, h⟩ := bind_eq_ok_iff.mp h
      cases h
      refine (ih hdefaults.tail hfound.tail hrest).cons ?_
      cases hlookup : found.lookup name with
      | some t' =>
        rw [hlookup] at ht
        cases ht
        exact hfound name s t List.mem_cons_self hlookup
      | none =>
        rw [hlookup] at ht
        exact hdefaults name s t List.mem_cons_self ht
    · cases h

theorem YieldsFields.admits_of_fieldsOfArray (h : YieldsFields fs fields)
    (hdefaults : Schema.FitsFields fields defaults) {r inner : Position} {label : String}
    {items : List Json} {ending : Json.Ending} {values : List (String × Tree)}
    (hvalues : fieldsOfArray r inner label fs defaults items ending = .ok values) :
    Schema.AdmitsFields fields values := by
  obtain ⟨found, hfound, hvalues⟩ := bind_eq_ok_iff.mp hvalues
  obtain ⟨_, -, hvalues⟩ := bind_eq_ok_iff.mp hvalues
  cases hvalues
  exact h.admits_of_fieldPositions hdefaults hfound

theorem YieldsFields.admits_of_fieldsOfObject (h : YieldsFields fs fields)
    (hnames : (fields.map Prod.fst).Nodup) (hdefaults : Schema.FitsFields fields defaults)
    {r : Position} {entries : List (Json.Key × Json)} {ending : Json.Ending}
    {values : List (String × Tree)}
    (hvalues : fieldsOfObject r fs defaults entries ending = .ok values) :
    Schema.AdmitsFields fields values := by
  obtain ⟨found, hfound, hvalues⟩ := bind_eq_ok_iff.mp hvalues
  obtain ⟨_, -, hvalues⟩ := bind_eq_ok_iff.mp hvalues
  rw [h.names] at hvalues
  exact admits_of_collectFields hdefaults
    (h.fits_of_fieldEntries hnames Schema.fitsFields_nil hfound) hvalues

theorem YieldsFields.yields_record (h : YieldsFields fs fields)
    (hnames : (fields.map Prod.fst).Nodup) (hdefaults : Schema.FitsFields fields defaults)
    (name : String) : (record name fs defaults).Yields (.record name fields defaults) := by
  intro r j t hj
  unfold record whole at hj
  dsimp only at hj
  split at hj
  · obtain ⟨inner, -, hj⟩ := bind_eq_ok_iff.mp hj
    obtain ⟨values, hvalues, hj⟩ := bind_eq_ok_iff.mp hj
    cases hj
    obtain ⟨hsame, hadmits⟩ := h.admits_of_fieldsOfArray hdefaults hvalues
    exact .record name defaults hsame hadmits
  · obtain ⟨inner, -, hj⟩ := bind_eq_ok_iff.mp hj
    obtain ⟨values, hvalues, hj⟩ := bind_eq_ok_iff.mp hj
    cases hj
    obtain ⟨hsame, hadmits⟩ := h.admits_of_fieldsOfObject hnames hdefaults hvalues
    exact .record name defaults hsame hadmits
  · cases hj

end Fields

/-! ### Enumerations -/

/-- What an alternative carries is decoded by decoders of its types. -/
inductive YieldsPayload : Payload TreeDecoder → Payload Schema → Prop where
  | nothing : YieldsPayload .nothing .nothing
  | single {d : TreeDecoder} {s : Schema} (hd : d.Yields s) : YieldsPayload (.single d) (.single s)
  | several {ds : List TreeDecoder} {ss : List Schema} (hds : List.Forall₂ Yields ds ss) :
      YieldsPayload (.several ds) (.several ss)
  | named {fs : List (String × TreeDecoder)} {fields : List (String × Schema)}
      (hfs : YieldsFields fs fields) (hnames : (fields.map Prod.fst).Nodup) :
      YieldsPayload (.named fs) (.named fields)

/-- Decoders of alternatives, each of them for one of its name. -/
def YieldsVariants (vs : List (Variant TreeDecoder)) (variants : List (Variant Schema)) : Prop :=
  ∀ v ∈ vs, ∃ w ∈ variants, v.written = w.written ∧ YieldsPayload v.payload w.payload

section Variants

variable {vs : List (Variant TreeDecoder)} {variants : List (Variant Schema)}

theorem YieldsPayload.yields {p : Payload TreeDecoder} {w : Variant Schema}
    (h : YieldsPayload p w.payload) (hw : w ∈ variants) (label type : String) :
    (payload w.written label p).Yields (.enumeration type variants) := by
  intro r j t hj
  generalize hp : w.payload = q at h
  cases h with
  | nothing =>
    unfold payload whole at hj
    dsimp only at hj
    split at hj
    · cases hj
      exact .unitVariant type hw hp
    · cases hj
  | single hd =>
    obtain ⟨t', ht', rfl⟩ := map_eq_ok_iff.mp hj
    exact .newtypeVariant type hw hp (hd.admits_of_decodeBefore ht')
  | several hds =>
    unfold payload whole at hj
    dsimp only at hj
    split at hj
    · cases hj
    · obtain ⟨inner, -, hj⟩ := bind_eq_ok_iff.mp hj
      obtain ⟨ts, hts, hj⟩ := bind_eq_ok_iff.mp hj
      obtain ⟨_, -, hj⟩ := bind_eq_ok_iff.mp hj
      cases hj
      exact .tupleVariant type hw hp (admits_of_positions hds hts)
    · cases hj
    · cases hj
  | named hfs hnames =>
    unfold payload whole at hj
    dsimp only at hj
    split at hj
    · obtain ⟨inner, -, hj⟩ := bind_eq_ok_iff.mp hj
      obtain ⟨values, hvalues, hj⟩ := bind_eq_ok_iff.mp hj
      cases hj
      obtain ⟨hsame, hadmits⟩ := hfs.admits_of_fieldsOfArray Schema.fitsFields_nil hvalues
      exact .recordVariant type hw hp hsame hadmits
    · obtain ⟨inner, -, hj⟩ := bind_eq_ok_iff.mp hj
      obtain ⟨values, hvalues, hj⟩ := bind_eq_ok_iff.mp hj
      cases hj
      obtain ⟨hsame, hadmits⟩ := hfs.admits_of_fieldsOfObject hnames Schema.fitsFields_nil hvalues
      exact .recordVariant type hw hp hsame hadmits
    · cases hj
    · cases hj

theorem YieldsVariants.exists_of_findVariant (h : YieldsVariants vs variants) {name : String}
    {v : Variant TreeDecoder} (hv : findVariant vs name = .ok v) :
    ∃ w ∈ variants, w.written = name ∧ YieldsPayload v.payload w.payload := by
  unfold findVariant at hv
  split at hv
  · rename_i v' hfind
    cases hv
    have hname : v.written = name := by simpa using List.find?_some hfind
    obtain ⟨w, hw, hwritten, hpayload⟩ := h v (List.mem_of_find?_eq_some hfind)
    exact ⟨w, hw, hwritten.symm.trans hname, hpayload⟩
  · cases hv

theorem YieldsVariants.yields_namedPayload (h : YieldsVariants vs variants) (type name : String) :
    (namedPayload type vs name).Yields (.enumeration type variants) := by
  intro r j t hj
  obtain ⟨v, hv, hj⟩ := bind_eq_ok_iff.mp hj
  obtain ⟨_, -, hj⟩ := bind_eq_ok_iff.mp hj
  obtain ⟨w, hw, rfl, hpayload⟩ := h.exists_of_findVariant hv
  exact hpayload.yields hw _ type r j t hj

theorem YieldsVariants.admits_of_plain (h : YieldsVariants vs variants) (type : String)
    {name : String} {v : Variant TreeDecoder} (hv : findVariant vs name = .ok v) {t : Tree}
    (ht : plain name v.payload = .ok t) : (Schema.enumeration type variants).Admits t := by
  obtain ⟨w, hw, rfl, hpayload⟩ := h.exists_of_findVariant hv
  generalize hp : w.payload = q at hpayload
  generalize v.payload = p at ht hpayload
  cases hpayload with
  | nothing =>
    cases ht
    exact .unitVariant type hw hp
  | single | several | named => cases ht

theorem YieldsVariants.yields_enumeration (h : YieldsVariants vs variants) (type : String) :
    (enumeration type vs).Yields (.enumeration type variants) := by
  intro r j t hj
  unfold enumeration whole at hj
  dsimp only at hj
  split at hj
  · obtain ⟨v, hv, ht⟩ := bind_eq_ok_iff.mp hj
    exact h.admits_of_plain type hv ht
  · obtain ⟨inner, -, hj⟩ := bind_eq_ok_iff.mp hj
    obtain ⟨t', ht', hj⟩ := bind_eq_ok_iff.mp hj
    have hadmits := h.yields_namedPayload type _ inner _ t' ht'
    split at hj
    · cases hj
      exact hadmits
    · cases hj
    · cases hj
  -- without an entry that has a name there is no alternative
  · obtain ⟨_, -, hj⟩ := bind_eq_ok_iff.mp hj
    cases hj
  · obtain ⟨_, -, hj⟩ := bind_eq_ok_iff.mp hj
    cases hj
  · obtain ⟨_, -, hj⟩ := bind_eq_ok_iff.mp hj
    cases hj
  · cases hj
  · cases hj
  · cases hj
  · exact h.yields_namedPayload type _ r _ t hj
  · cases hj
  · cases hj

end Variants

/-! ### Declared types -/

theorem yields_decoders {ss : List Schema} (h : ∀ s ∈ ss, s.decoder.Yields s) :
    List.Forall₂ Yields (decoders ss) ss := by
  induction ss with
  | nil => exact .nil
  | cons s ss ih =>
    obtain ⟨hs, hss⟩ := List.forall_mem_cons.mp h
    exact .cons hs (ih hss)

theorem yields_fieldDecoders {fields : List (String × Schema)}
    (h : ∀ s ∈ fields.map Prod.snd, s.decoder.Yields s) :
    YieldsFields (fieldDecoders fields) fields := by
  induction fields with
  | nil => exact .nil
  | cons field fields ih =>
    obtain ⟨hs, hfields⟩ := List.forall_mem_cons.mp h
    exact .cons ⟨rfl, hs⟩ (ih hfields)

theorem yields_payloadDecoder {p : Payload Schema}
    (hnames : ∀ fields, p = .named fields → (fields.map Prod.fst).Nodup)
    (h : ∀ s ∈ p.parts, s.decoder.Yields s) : YieldsPayload (payloadDecoder p) p := by
  cases p with
  | nothing => exact .nothing
  | single s => exact .single (h s (List.mem_singleton.mpr rfl))
  | several ss => exact .several (yields_decoders h)
  | named fields => exact .named (yields_fieldDecoders h) (hnames fields rfl)

theorem yields_variantDecoders {variants : List (Variant Schema)}
    (hnames : ∀ v ∈ variants, ∀ fields, v.payload = .named fields → (fields.map Prod.fst).Nodup)
    (h : ∀ s ∈ variants.flatMap fun v => v.payload.parts, s.decoder.Yields s) :
    YieldsVariants (variantDecoders variants) variants := by
  induction variants with
  | nil =>
    intro v hv
    cases hv
  | cons w variants ih =>
    rw [List.flatMap_cons, List.forall_mem_append] at h
    obtain ⟨hw, hvariants⟩ := List.forall_mem_cons.mp hnames
    intro v hv
    rcases List.mem_cons.mp hv with rfl | hv
    · exact ⟨w, List.mem_cons_self, rfl, yields_payloadDecoder hw h.1⟩
    · obtain ⟨w', hw', hyields⟩ := ih hvariants h.2 v hv
      exact ⟨w', List.mem_cons_of_mem w hw', hyields⟩

end Decoder

namespace Schema

/-- **Whatever a well-formed type decodes is a value of it.** -/
theorem WellFormed.yields {s : Schema} (h : s.WellFormed) : s.decoder.Yields s := by
  induction h with
  | @of s hs _ ih =>
    cases s with
    | bool => exact Decoder.yields_bool
    | int kind => exact Decoder.yields_int kind
    | float => exact Decoder.yields_float
    | char => exact Decoder.yields_char
    | text => exact Decoder.yields_text
    | unit => exact Decoder.yields_unit
    | optional s => exact (ih s (List.mem_singleton.mpr rfl)).optional
    | seq s => exact (ih s (List.mem_singleton.mpr rfl)).seq
    | map s => exact (ih s (List.mem_singleton.mpr rfl)).map
    | tuple ss => exact Decoder.yields_tuple (Decoder.yields_decoders ih)
    | newtype name s => exact (ih s (List.mem_singleton.mpr rfl)).newtype name
    | record name fields defaults =>
      exact (Decoder.yields_fieldDecoders ih).yields_record hs.1 hs.2 name
    | enumeration name variants =>
      exact (Decoder.yields_variantDecoders hs ih).yields_enumeration name
    | any => exact fun _ _ t _ => .any t
    | closed reason shown =>
      intro r j t ht
      cases ht

/-! ## Literals -/

theorem admits_of_plainVariant {type : String} {variants : List (Variant Schema)} {name : String}
    {t : Tree} (h : plainVariant variants name = some t) :
    (enumeration type variants).Admits t := by
  obtain ⟨v, hv, h⟩ := List.exists_of_findSome?_eq_some h
  split at h
  · rename_i hpayload
    split at h
    · rename_i hwritten
      cases h
      rw [← hwritten]
      exact .unitVariant type hv hpayload
    · cases h
  · cases h

/-- A scalar that a type takes is made a value of it. -/
theorem admits_of_ofScalar {s : Schema} {x : Scalar} {t : Tree} (h : s.ofScalar x = some t) :
    s.Admits t := by
  unfold ofScalar at h
  split at h
  · cases h
    exact .text _
  · split at h
    · cases h
      exact .char _
    · cases h
  · exact admits_of_plainVariant h
  · cases h
    exact .any _
  · cases h
    exact .bool _
  · cases h
    exact .any _
  · split at h
    · rename_i hholds
      cases h
      exact .int hholds
    · cases h
  · cases h
    exact .float _
  · cases h
    exact .any _
  · cases h
    exact .float _
  · cases h
    exact .any _
  · cases h

/-- **Whatever a literal spells is a value of the type.** -/
theorem admits_of_ofLiteral {s : Schema} {literal : String} {t : Tree}
    (h : s.ofLiteral literal = some t) : s.Admits t := by
  obtain ⟨x, -, hx⟩ := List.exists_of_findSome?_eq_some h
  exact admits_of_ofScalar hx

end Schema

end BeanBinding
