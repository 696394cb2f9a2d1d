import BeanBinding.Proofs.Ignoring
import BeanBinding.Proofs.Storing
import Mathlib.Data.List.Perm.Basic

/-!
# The order of entries

An object lists its entries in some order, and another order says the same. A deserializer
takes them one after the other, so the order shows in when something is set, and in where
reading stops if it fails. What is read should not depend on it.

Two changes `Swap` if it does not matter which comes first, as far as they both succeed.
Values for different fields do. So the entries of an update can be put in any order, and so
can the values that wait for a bean to be made. The arguments that are collected for it are
kept in slots, and filling two slots can be done in either order.

That is where it takes more than different names. Creators say themselves which slot is
theirs, and building a deserializer only checks that there is such a slot. Of two creators
that share one the later entry gets it, and then the order of entries shows in the bean.
-/

namespace BeanBinding

variable {σ : Type}

/-! ## Changes in either order -/

/-- Two changes lead to the same beans in either order. -/
def Swap {ε : Type} (x y : ChangeM ε σ Unit) : Prop :=
  ∀ bean left : Bean σ,
    (do x; y : ChangeM ε σ Unit) bean = .ok () left ↔
      (do y; x : ChangeM ε σ Unit) bean = .ok () left

theorem Swap.symm {ε : Type} {x y : ChangeM ε σ Unit} (h : Swap x y) : Swap y x :=
  fun bean left => (h bean left).symm

/-- **Changes in a row may be made in any order if every two of them may.** -/
theorem forM_perm {ε α : Type} {step : α → ChangeM ε σ Unit} {xs ys : List α} (h : xs.Perm ys)
    (hswap : xs.Pairwise fun x y => Swap (step x) (step y)) (bean left : Bean σ) :
    (forM xs step : ChangeM ε σ Unit) bean = .ok () left ↔
      (forM ys step : ChangeM ε σ Unit) bean = .ok () left := by
  induction h generalizing bean with
  | nil => rfl
  | cons x _ ih =>
    have hrest := ih (List.pairwise_cons.mp hswap).2
    simp only [List.forM_cons, change_bind_eq_ok_iff, hrest]
  | swap x y xs =>
    obtain ⟨hy, -⟩ := List.pairwise_cons.mp hswap
    have hyx := hy x List.mem_cons_self
    -- the first two changes are taken together, before the rest
    rw [List.forM_cons, List.forM_cons, List.forM_cons, List.forM_cons, ← bind_assoc,
      ← bind_assoc, change_bind_eq_ok_iff, change_bind_eq_ok_iff]
    simp only [hyx bean]
  | trans hxy _ ihxy ihyz =>
    -- swapping goes both ways, so the list in between allows it as well
    have hswap' := (hxy.pairwise_iff fun hxy => Swap.symm hxy).mp hswap
    exact (ihxy hswap bean).trans (ihyz hswap' bean)

/-- What always fails, or never does anything, swaps with everything. -/
theorem swap_lift (x : Except ReadError Unit) (y : ChangeM ReadError σ Unit) :
    Swap (Deserializer.lift x) y := by
  intro bean left
  cases x with
  | ok _ => rw [Deserializer.lift_ok, bind_pure_unit, pure_bind]
  | error e =>
    simp only [change_bind_eq_ok_iff, Deserializer.lift_eq_ok_iff, reduceCtorEq, false_and,
      and_false, exists_false]

namespace Fields

variable {fields : Fields σ} {type : BeanType} {f g : fields.Name}

theorem run_swapped {ε : Type} {x y : ChangeM ε σ Unit} (h : f ≠ g)
    (hx : ∀ type, fields.Fate type f x) (hy : ∀ type, fields.Fate type g y) {bean left : Bean σ}
    (hrun : (do x; y : ChangeM ε σ Unit) bean = .ok () left) :
    (do y; x : ChangeM ε σ Unit) bean = .ok () left := by
  obtain ⟨_, next, hxrun, hyrun⟩ := change_bind_eq_ok_iff.mp hrun
  obtain ⟨c, hnext, hc⟩ := (hx bean.type).exists_put rfl hxrun
  have htype : next.type = bean.type := by rw [hnext, type_put]
  obtain ⟨c', hleft, hc'⟩ := (hy bean.type).exists_put htype hyrun
  rw [change_bind_ok (hc' bean rfl), hc _ (type_put c' bean), hleft, hnext, put_comm h]

/-- **Changes to different fields can be made in either order.** -/
theorem swap_of_fates {ε : Type} {x y : ChangeM ε σ Unit} (h : f ≠ g)
    (hx : ∀ type, fields.Fate type f x) (hy : ∀ type, fields.Fate type g y) : Swap x y :=
  fun _ _ => ⟨run_swapped h hx hy, run_swapped h.symm hy hx⟩

end Fields

namespace Deserializer

variable {d : Deserializer σ} {fields : Fields σ} {type : BeanType} {f : fields.Name}
  {r : Position} {ending : Option Fault}

theorem fate_set {s : Settable σ} (h : fields.StoresIn type f s.set) (value : Option Value) :
    fields.Fate type f (d.set s value) := by
  cases h value with
  | refused h => exact .refused fun bean next hb hrun => h bean next hb (set_eq_ok_iff.mp hrun)
  | passed h => exact .passed fun bean hb => set_eq_ok_iff.mpr (h bean hb)
  | stored c h => exact .stored c fun bean hb => set_eq_ok_iff.mpr (h bean hb)

/-- What is handed over is stored as well, if all of it is read. -/
theorem fate_hand {s : Settable σ} (h : fields.StoresIn type f s.set)
    (value : Except ReadError (Option Value)) (rest : Except ReadError Unit) :
    fields.Fate type f (d.hand s value rest) := by
  cases value with
  | error e => exact .refused fun bean next _ hrun => by cases hrun
  | ok v =>
    rw [hand, lift_ok, pure_bind]
    cases rest with
    | ok _ =>
      rw [lift_ok, bind_pure_unit]
      exact fate_set h v
    | error e =>
      refine .refused fun bean next _ hrun => ?_
      obtain ⟨_, _, -, hrest⟩ := change_bind_eq_ok_iff.mp hrun
      cases hrest

/-! ## Entries -/

/-- What stands under different names is stored into different fields. -/
structure Spreads (d : Deserializer σ) (fields : Fields σ) (field : String → fields.Name) :
    Prop where
  /-- What is set under a name is stored in the field for it, whatever the bean holds. -/
  stores : ∀ name s, d.updated name = some s → ∀ type, fields.StoresIn type (field name) s.set
  /-- Different names have different fields. -/
  apart : ∀ name name' s s', d.updated name = some s → d.updated name' = some s' →
    name ≠ name' → field name ≠ field name'

/-- It is enough to look at the properties and creators. -/
theorem Indexed.spreads (h : d.Indexed) {field : String → fields.Name}
    (hstores : ∀ s, s ∈ d.properties ∨ s ∈ d.creators →
      ∀ type, fields.StoresIn type (field s.name) s.set)
    (hapart : ∀ s s', s ∈ d.properties ∨ s ∈ d.creators → s' ∈ d.properties ∨ s' ∈ d.creators →
      s.name ≠ s'.name → field s.name ≠ field s'.name) : d.Spreads fields field := by
  have hname : ∀ name s, d.updated name = some s → s.name = name := by
    intro name s hs
    unfold updated at hs
    cases hp : d.property name with
    | some s' =>
      rw [hp] at hs
      cases hs
      exact (h.property_eq_some_iff.mp hp).2
    | none =>
      rw [hp] at hs
      obtain ⟨⟨k, s'⟩, hc, rfl⟩ := Option.map_eq_some_iff.mp hs
      exact (h.creator_eq_some_iff.mp hc).2
  constructor
  · intro name s hs
    rw [← hname name s hs]
    exact hstores s (mem_of_updated hs)
  · intro name name' s s' hs hs' hne
    rw [← hname name s hs, ← hname name' s' hs'] at hne ⊢
    exact hapart s s' (mem_of_updated hs) (mem_of_updated hs') hne

/-- An entry without a known name is passed over, or an error; any other is handed over. -/
theorem handEntry_cases (d : Deserializer σ) (r : Position) (e : Entry) :
    (∃ x, d.handEntry d.updated r e = lift x) ∨
      ∃ name s value rest, e.key = .ok name ∧ d.updated name = some s ∧
        d.handEntry d.updated r e = d.hand s value rest := by
  unfold handEntry
  cases hkey : e.key with
  | error x => exact .inl ⟨.error x, rfl⟩
  | ok name =>
    rw [lift_ok, pure_bind]
    cases hs : d.updated name with
    | none => exact .inl ⟨_, rfl⟩
    | some s => exact .inr ⟨name, s, _, _, rfl, hs, rfl⟩

variable {field : String → fields.Name}

/-- Entries of different names can be handed over in either order. -/
theorem Spreads.swap_handEntry (h : d.Spreads fields field) {e e' : Entry}
    (hne : ∀ name, e.key = .ok name → e'.key ≠ .ok name) :
    Swap (d.handEntry d.updated r e) (d.handEntry d.updated r e') := by
  rcases d.handEntry_cases r e with ⟨x, hx⟩ | ⟨name, s, value, rest, hkey, hs, hhand⟩
  · rw [hx]
    exact swap_lift x _
  · rcases d.handEntry_cases r e' with ⟨x, hx⟩ | ⟨name', s', value', rest', hkey', hs', hhand'⟩
    · rw [hx]
      exact (swap_lift x _).symm
    · have hname : name ≠ name' := by
        rintro rfl
        exact hne name hkey hkey'
      rw [hhand, hhand']
      exact Fields.swap_of_fates (h.apart name name' s s' hs hs' hname)
        (fun type => fate_hand (h.stores name s hs type) value rest)
        (fun type => fate_hand (h.stores name' s' hs' type) value' rest')

/-- **Entries update a bean in any order.** -/
theorem Spreads.updateEntries_perm (h : d.Spreads fields field) {es es' : List Entry}
    (hperm : es.Perm es') (hkeys : (es.filterMap (·.key.toOption)).Nodup) (bean left : Bean σ) :
    d.updateEntries r ending es bean = .ok () left ↔
      d.updateEntries r ending es' bean = .ok () left := by
  have hswap : es.Pairwise fun e e' =>
      Swap (d.handEntry d.updated r e) (d.handEntry d.updated r e') := by
    refine (List.pairwise_filterMap.mp hkeys).imp fun hne => h.swap_handEntry ?_
    intro name hkey hkey'
    exact hne name (by rw [hkey]; rfl) name (by rw [hkey']; rfl) rfl
  simp only [updateEntries_eq_handed, handEntries, change_bind_eq_ok_iff,
    forM_perm hperm hswap]

/-! ## What is collected -/

/-- A broken value is not passed over. -/
theorem skipUnknown_error {name : String} {fault : Fault} :
    d.skipUnknown name (.error fault) ≠ .ok () := by
  unfold skipUnknown
  split
  · simp
  · simp

/-- Only an entry with a name and a value is collected. -/
theorem exists_pair_of_collectEntry {e : Entry} {p q : Pending σ}
    (h : d.collectEntry r e p = .ok q) : ∃ name j, e = ⟨.ok name, .ok j⟩ := by
  obtain ⟨key, value⟩ := e
  obtain ⟨name, rfl, h⟩ := bind_eq_ok_iff.mp h
  cases value with
  | ok j => exact ⟨name, j, rfl⟩
  | error fault =>
    split at h
    · obtain ⟨_, hdecode, -⟩ := bind_eq_ok_iff.mp h
      cases hdecode
    · split at h
      · obtain ⟨_, hdecode, -⟩ := bind_eq_ok_iff.mp h
        cases hdecode
      · obtain ⟨_, hskip, -⟩ := bind_eq_ok_iff.mp h
        exact absurd hskip skipUnknown_error

/-- A document that is collected consists of names and values, and nothing comes behind them. -/
theorem exists_pairs_of_collectEntries {es : List Entry} {p q : Pending σ}
    (h : d.collectEntries r ending es p = .ok q) :
    ending = none ∧ ∀ e ∈ es, ∃ name j, e = ⟨.ok name, .ok j⟩ := by
  induction es generalizing p with
  | nil =>
    obtain ⟨_, hfinish, -⟩ := bind_eq_ok_iff.mp h
    exact ⟨finish_eq_ok_iff.mp hfinish, fun e he => by cases he⟩
  | cons e es ih =>
    rw [collectEntries_eq_bind] at h
    obtain ⟨next, hnext, hrest⟩ := bind_eq_ok_iff.mp h
    obtain ⟨hending, hes⟩ := ih hrest
    exact ⟨hending, List.forall_mem_cons.mpr ⟨exists_pair_of_collectEntry hnext, hes⟩⟩

/-- Fills the slot that an entry is for, if it is for an argument. -/
def claimed (d : Deserializer σ) (r : Position) (e : String × Json) (p : Pending σ) : Pending σ :=
  match d.creator e.1 with
  | some (position, s) => p.argument (d.slotOf position) (decoded s r e.2)
  | none => p

/-- The value of an entry that waits for the bean, if it is for a property. -/
def waits (d : Deserializer σ) (r : Position) (e : String × Json) :
    Option (Settable σ × Option Value) :=
  match d.creator e.1 with
  | some _ => none
  | none => (d.property e.1).map fun s => (s, decoded s r e.2)

/-- Values that wait, and more of them. -/
def Pending.behind (p : Pending σ) (xs : List (Settable σ × Option Value)) : Pending σ :=
  { p with buffered := p.buffered ++ xs }

theorem Pending.behind_behind (p : Pending σ) (xs ys : List (Settable σ × Option Value)) :
    (p.behind xs).behind ys = p.behind (xs ++ ys) := by
  simp only [behind, List.append_assoc]

theorem Pending.behind_nil (p : Pending σ) : p.behind [] = p := by
  simp only [behind, List.append_nil]

theorem keepEntry_eq (e : String × Json) (p : Pending σ) :
    d.keepEntry r e p = (d.claimed r e p).behind (d.waits r e).toList := by
  unfold keepEntry claimed waits
  cases d.creator e.1 with
  | some c => exact (Pending.behind_nil _).symm
  | none =>
    cases d.property e.1 with
    | some s => rfl
    | none => exact (Pending.behind_nil _).symm

theorem claimed_behind (e : String × Json) (p : Pending σ)
    (xs : List (Settable σ × Option Value)) :
    d.claimed r e (p.behind xs) = (d.claimed r e p).behind xs := by
  unfold claimed
  cases d.creator e.1 with
  | some c => rfl
  | none => rfl

theorem foldl_claimed_behind (es : List (String × Json)) (p : Pending σ)
    (xs : List (Settable σ × Option Value)) :
    es.foldl (fun p e => d.claimed r e p) (p.behind xs) =
      (es.foldl (fun p e => d.claimed r e p) p).behind xs := by
  induction es generalizing p with
  | nil => rfl
  | cons e es ih => rw [List.foldl_cons, List.foldl_cons, claimed_behind, ih]

/-- Slots are filled and values wait, each without regard to the other. -/
theorem foldl_keepEntry (es : List (String × Json)) (p : Pending σ) :
    es.foldl (fun p e => d.keepEntry r e p) p =
      (es.foldl (fun p e => d.claimed r e p) p).behind (es.filterMap (d.waits r)) := by
  induction es generalizing p with
  | nil => exact (Pending.behind_nil p).symm
  | cons e es ih =>
    rw [List.foldl_cons, List.foldl_cons, ih, keepEntry_eq, foldl_claimed_behind,
      Pending.behind_behind, List.filterMap_cons]
    cases d.waits r e with
    | none => rfl
    | some x => rfl

/-! ### Filling slots -/

theorem Pending.argument_comm {k l : Nat} (h : k ≠ l) (value value' : Option Value)
    (p : Pending σ) :
    (p.argument k value).argument l value' = (p.argument l value').argument k value := by
  simp only [argument, List.set_comm _ _ h]

/-- Creators of different names have different slots, if no slot belongs to two creators. -/
theorem Indexed.slotOf_ne (h : d.Indexed) (hslots : d.creatorSlots.Nodup) {name name' : String}
    {k k' : Nat} {s s' : Settable σ} (hc : d.creator name = some (k, s))
    (hc' : d.creator name' = some (k', s')) (hne : name ≠ name') : d.slotOf k ≠ d.slotOf k' := by
  obtain ⟨hk, hname⟩ := h.creator_eq_some_iff.mp hc
  obtain ⟨hk', hname'⟩ := h.creator_eq_some_iff.mp hc'
  rw [h.creatorSlots_eq] at hslots
  intro hslot
  -- one slot, one position, one creator, one name
  have hposition : k = k' := List.inj_on_of_nodup_map hslots
    (List.mem_range.mpr (List.getElem?_eq_some_iff.mp hk).1)
    (List.mem_range.mpr (List.getElem?_eq_some_iff.mp hk').1) hslot
  subst hposition
  rw [hk] at hk'
  cases hk'
  exact hne (hname.symm.trans hname')

/-- Entries of different names fill slots in either order. -/
theorem claimed_comm (h : d.Indexed) (hslots : d.creatorSlots.Nodup) {e e' : String × Json}
    (hne : e.1 ≠ e'.1) (p : Pending σ) :
    d.claimed r e (d.claimed r e' p) = d.claimed r e' (d.claimed r e p) := by
  unfold claimed
  cases hc : d.creator e.1 with
  | none => rfl
  | some c =>
    cases hc' : d.creator e'.1 with
    | none => rfl
    | some c' => exact Pending.argument_comm (h.slotOf_ne hslots hc' hc hne.symm) _ _ p

/-- **Slots are filled alike in any order of the entries.** -/
theorem foldl_claimed_perm (h : d.Indexed) (hslots : d.creatorSlots.Nodup)
    {es es' : List (String × Json)} (hperm : es.Perm es') (hnames : (es.map (·.1)).Nodup)
    (p : Pending σ) :
    es.foldl (fun p e => d.claimed r e p) p = es'.foldl (fun p e => d.claimed r e p) p := by
  refine hperm.foldl_eq' (fun e he e' he' q => ?_) p
  -- entries of one name are one entry
  by_cases hname : e.1 = e'.1
  · rw [List.inj_on_of_nodup_map hnames he he' hname]
  · exact claimed_comm h hslots (fun heq => hname heq.symm) q

/-! ### Values that wait -/

/-- What waits is what an update would set. -/
theorem updated_of_waits {e : String × Json} {x : Settable σ × Option Value}
    (h : d.waits r e = some x) : d.updated e.1 = some x.1 := by
  unfold waits at h
  cases hc : d.creator e.1 with
  | some c =>
    rw [hc] at h
    cases h
  | none =>
    rw [hc] at h
    obtain ⟨s, hs, rfl⟩ := Option.map_eq_some_iff.mp h
    rw [updated, hs]
    rfl

/-- **Values that wait can be set in any order.** -/
theorem Spreads.setAll_perm (h : d.Spreads fields field) {es es' : List (String × Json)}
    (hperm : es.Perm es') (hnames : (es.map (·.1)).Nodup) (bean left : Bean σ) :
    d.setAll (es.filterMap (d.waits r)) bean = .ok () left ↔
      d.setAll (es'.filterMap (d.waits r)) bean = .ok () left := by
  rw [setAll_eq_forM, setAll_eq_forM]
  refine forM_perm (hperm.filterMap _) (List.pairwise_filterMap.mpr ?_) bean left
  refine (List.pairwise_map.mp hnames).imp fun hne x hx y hy => ?_
  have hs := updated_of_waits hx
  have hs' := updated_of_waits hy
  exact Fields.swap_of_fates (h.apart _ _ _ _ hs hs' hne)
    (fun type => fate_set (h.stores _ _ hs type) x.2)
    (fun type => fate_set (h.stores _ _ hs' type) y.2)

/-! ## Creating -/

theorem complete_eq_ok_iff {p : Pending σ} {bean : Bean σ} :
    d.complete p = .ok bean ↔ d.firstMissing p = none ∧
      ∃ made, d.instantiator.makeWith p.arguments = .ok made ∧
        d.setAll p.buffered made = .ok () bean := by
  unfold complete
  cases d.firstMissing p with
  | some s => simp
  | none =>
    simp only [fill_eq_ok_iff, mapError_eq_ok_iff, true_and]

/-- The values that wait are only set once the rest is done. -/
theorem complete_behind_congr {p : Pending σ} {xs ys : List (Settable σ × Option Value)}
    (hp : p.buffered = []) {bean : Bean σ}
    (hset : ∀ made, d.setAll xs made = .ok () bean ↔ d.setAll ys made = .ok () bean) :
    d.complete (p.behind xs) = .ok bean ↔ d.complete (p.behind ys) = .ok bean := by
  have hbuffered : ∀ zs, (p.behind zs).buffered = zs := by
    intro zs
    rw [Pending.behind, hp, List.nil_append]
  have hmissing : ∀ zs, d.firstMissing (p.behind zs) = d.firstMissing p := fun _ => rfl
  have harguments : ∀ zs, (p.behind zs).arguments = p.arguments := fun _ => rfl
  simp only [complete_eq_ok_iff, hbuffered, hmissing, harguments, hset]

theorem buffered_foldl_claimed (es : List (String × Json)) (p : Pending σ) :
    (es.foldl (fun p e => d.claimed r e p) p).buffered = p.buffered := by
  induction es generalizing p with
  | nil => rfl
  | cons e es ih =>
    rw [List.foldl_cons, ih, claimed]
    cases d.creator e.1 with
    | none => rfl
    | some c => rfl

/-- What is collected in another order is completed alike. -/
theorem Spreads.complete_perm (h : d.Spreads fields field) (hi : d.Indexed)
    (hslots : d.creatorSlots.Nodup) {es es' : List (String × Json)} (hperm : es.Perm es')
    (hnames : (es.map (·.1)).Nodup) {bean : Bean σ} :
    d.complete (es.foldl (fun p e => d.keepEntry r e p) d.pending) = .ok bean ↔
      d.complete (es'.foldl (fun p e => d.keepEntry r e p) d.pending) = .ok bean := by
  rw [foldl_keepEntry, foldl_keepEntry, ← foldl_claimed_perm hi hslots hperm hnames]
  exact complete_behind_congr (buffered_foldl_claimed es d.pending)
    fun made => h.setAll_perm hperm hnames made bean

/-- The name and the value of an entry that has both. -/
def pair? (e : Entry) : Option (String × Json) :=
  match e with
  | ⟨.ok name, .ok j⟩ => some (name, j)
  | _ => none

/-- Entries that have names and values are pairs. -/
theorem map_pairs {es : List Entry} (hes : ∀ e ∈ es, ∃ name j, e = ⟨.ok name, .ok j⟩) :
    (es.filterMap pair?).map (fun x => ⟨.ok x.1, .ok x.2⟩) = es := by
  induction es with
  | nil => rfl
  | cons e es ih =>
    obtain ⟨⟨name, j, rfl⟩, hrest⟩ := List.forall_mem_cons.mp hes
    have hpair : pair? ⟨.ok name, .ok j⟩ = some (name, j) := rfl
    rw [List.filterMap_cons_some hpair, List.map_cons, ih hrest]

/-- The pairs of the entries that some pairs make are these pairs. -/
theorem pairs_of_map (xs : List (String × Json)) :
    (xs.map fun x => (⟨.ok x.1, .ok x.2⟩ : Entry)).filterMap pair? = xs := by
  rw [List.filterMap_map]
  exact List.filterMap_some

/-- The names of pairs are the keys of their entries. -/
theorem names_of_pairs (xs : List (String × Json)) :
    (xs.map fun x => (⟨.ok x.1, .ok x.2⟩ : Entry)).filterMap (·.key.toOption) = xs.map (·.1) := by
  rw [List.filterMap_map, ← List.filterMap_eq_map]
  rfl

/-- Entries are collected and completed in any order. -/
theorem Spreads.collectEntries_perm (h : d.Spreads fields field) (hi : d.Indexed)
    (hslots : d.creatorSlots.Nodup) {es es' : List Entry} (hperm : es.Perm es')
    (hkeys : (es.filterMap (·.key.toOption)).Nodup) {bean : Bean σ}
    (hrun : d.collectEntries r ending es d.pending >>= d.complete = .ok bean) :
    d.collectEntries r ending es' d.pending >>= d.complete = .ok bean := by
  obtain ⟨p, hcollect, hcomplete⟩ := bind_eq_ok_iff.mp hrun
  obtain ⟨rfl, hes⟩ := exists_pairs_of_collectEntries hcollect
  have hes' : ∀ e ∈ es', ∃ name j, e = ⟨.ok name, .ok j⟩ :=
    fun e he => hes e (hperm.mem_iff.mpr he)
  have hpairs := hperm.filterMap pair?
  rw [← map_pairs hes] at hcollect hkeys
  rw [← map_pairs hes']
  rw [names_of_pairs] at hkeys
  -- the same entries are accepted, and what they leave behind is completed alike
  obtain ⟨haccepts, rfl⟩ := collectEntries_eq_ok_iff.mp hcollect
  have haccepts' : ∀ e ∈ es'.filterMap pair?, d.Accepts r e :=
    fun e he => haccepts e (hpairs.mem_iff.mpr he)
  exact bind_eq_ok_iff.mpr ⟨_, collectEntries_eq_ok_iff.mpr ⟨haccepts', rfl⟩,
    (h.complete_perm hi hslots hpairs hkeys).mp hcomplete⟩

/-- **Entries give a bean in any order**, if no two creators share a slot. -/
theorem Spreads.create_perm (h : d.Spreads fields field) (hi : d.Indexed)
    (hslots : d.creatorSlots.Nodup) {es es' : List Entry} (hperm : es.Perm es')
    (hkeys : (es.filterMap (·.key.toOption)).Nodup) {bean : Bean σ}
    (hcreate : d.create ⟨r, .entries es ending⟩ = .ok bean) :
    d.create ⟨r, .entries es' ending⟩ = .ok bean := by
  cases hshape : d.shape with
  | array =>
    rw [create_entries_of_array hshape] at hcreate
    cases hcreate
  | object =>
    rw [create_entries hshape] at hcreate ⊢
    cases huses : d.usesCreators with
    | false =>
      simp only [huses, Bool.false_eq_true, if_false, fill_eq_ok_iff] at hcreate ⊢
      obtain ⟨made, hmade, hupdate⟩ := hcreate
      exact ⟨made, hmade, (h.updateEntries_perm hperm hkeys made bean).mp hupdate⟩
    | true =>
      simp only [huses, if_true] at hcreate ⊢
      exact h.collectEntries_perm hi hslots hperm hkeys hcreate

/-- Arguments that are declared have slots of their own. -/
theorem Gathers.nodup_creatorSlots {i : Introspection σ} (h : d.Gathers i) :
    d.creatorSlots.Nodup := by
  have hcount : d.creators.length = i.arguments.length := by
    rw [h.creators, List.length_map]
  have hrange : d.creatorSlots = List.range i.arguments.length := by
    rw [h.indexed.creatorSlots_eq, hcount]
    refine (List.map_congr_left fun k hk => ?_).trans (List.map_id _)
    exact h.slotOf k (List.mem_range.mp hk)
  rw [hrange]
  exact List.nodup_range

end Deserializer

/--
**The order of entries does not matter, unless two creators share a slot.**

Let a built deserializer store what stands under different names into different fields of a
bean, and accept a value or refuse it by the value alone. Let no name occur twice in a
document, and let another have the same entries in another order. The two documents update a
bean to the same bean, if one of them updates it at all. And they give the same bean if one of
them gives one, provided that no two creators have the same argument slot. The creators for
the arguments of a constructor never have.
-/
theorem order_of_entries_immaterial (draft : DeserializerDraft σ) {d : Deserializer σ}
    (hd : draft.build = .ok d) (fields : Fields σ) (field : String → fields.Name)
    (h : d.Spreads fields field) {es es' : List Entry} (hperm : es.Perm es')
    (hkeys : (es.filterMap (·.key.toOption)).Nodup) (r : Position) (ending : Option Fault) :
    let document : Document := ⟨r, .entries es ending⟩
    let reordered : Document := ⟨r, .entries es' ending⟩
    (∀ bean left, d.update document bean = .ok () left ↔
      d.update reordered bean = .ok () left) ∧
    (d.creatorSlots.Nodup → ∀ bean, d.create document = .ok bean ↔
      d.create reordered = .ok bean) ∧
    (∀ i : Introspection σ, i.WellFormed → draft.instantiator = .ofIntrospection i →
      d.creatorSlots.Nodup) := by
  intro document reordered
  obtain ⟨-, hindexed⟩ := DeserializerDraft.indexed_of_build hd
  have hkeys' : (es'.filterMap (·.key.toOption)).Nodup :=
    (hperm.filterMap _).nodup_iff.mp hkeys
  refine ⟨fun bean left => ?_, fun hslots bean => ⟨?_, ?_⟩, fun i hi hm => ?_⟩
  · simp only [document, reordered, Deserializer.update_entries_eq_ok_iff,
      h.updateEntries_perm hperm hkeys]
  · exact h.create_perm hindexed hslots hperm hkeys
  · exact h.create_perm hindexed hslots hperm.symm hkeys'
  · exact (DeserializerDraft.makesBy_of_build hd hi hm).nodup_creatorSlots

/-! ### Two sides in either order -/

namespace Pair

/-- The side of a name. -/
def sideOf (name : String) : Side := if name = "left" then .left else .right

/-- A pair as two entries, the left side first. -/
def entries : List Entry :=
  [⟨.ok "left", .ok (.number (.ofInt 1))⟩, ⟨.ok "right", .ok (.number (.ofInt 2))⟩]

theorem entries_perm : entries.Perm entries.reverse := (List.reverse_perm entries).symm

theorem entries_nodup : (entries.filterMap (·.key.toOption)).Nodup := by
  decide

/-- The introspection of pairs that are made from their left side is well formed. -/
theorem made_wellFormed : (made leftProperty).WellFormed :=
  Introspection.Declared.wellFormed
    (((((Introspection.Declared.declare _).withProperty _).withProperty _).withArgument
      _).withConstructor _)

/-- What is called left or right is stored into the side of its name. -/
theorem spreads {d : Deserializer (Tree × Tree)} (h : d.Indexed)
    (hsides : ∀ s, s ∈ d.properties ∨ s ∈ d.creators →
      (s.name = "left" ∧ ∀ type, sides.StoresIn type .left s.set) ∨
        (s.name = "right" ∧ ∀ type, sides.StoresIn type .right s.set)) :
    d.Spreads sides sideOf := by
  have hapart : sideOf "left" ≠ sideOf "right" := by decide
  refine h.spreads (fun s hs type => ?_) fun s s' hs hs' hne => ?_
  · rcases hsides s hs with ⟨hname, hstores⟩ | ⟨hname, hstores⟩
    · rw [hname]
      exact hstores type
    · rw [hname]
      exact hstores type
  · rcases hsides s hs with ⟨hname, -⟩ | ⟨hname, -⟩
    · rcases hsides s' hs' with ⟨hname', -⟩ | ⟨hname', -⟩
      · exact absurd (hname.trans hname'.symm) hne
      · rw [hname, hname']
        exact hapart
    · rcases hsides s' hs' with ⟨hname', -⟩ | ⟨hname', -⟩
      · rw [hname, hname']
        exact hapart.symm
      · exact absurd (hname.trans hname'.symm) hne

end Pair

/-- A pair that is made from its left side can be read from either order of its sides. -/
theorem made_pair_in_either_order :
    let inOrder : Document := ⟨.start .streamed, .entries Pair.entries none⟩
    let reversed : Document := ⟨.start .streamed, .entries Pair.entries.reverse none⟩
    ∃ d, Pair.madeDraft.build = .ok d ∧ d.create inOrder = .ok (Pair.of 1 2) ∧
      d.create reversed = .ok (Pair.of 1 2) := by
  intro inOrder reversed
  obtain ⟨d, hd⟩ : ∃ d, Pair.madeDraft.build = .ok d := ⟨_, rfl⟩
  have hcreate : d.create inOrder = .ok (Pair.of 1 2) := by
    cases hd
    rfl
  obtain ⟨-, hindexed⟩ := DeserializerDraft.indexed_of_build hd
  have hspreads : d.Spreads Pair.sides Pair.sideOf := by
    refine Pair.spreads hindexed ?_
    cases hd
    rintro s (hs | hs)
    · cases List.mem_singleton.mp hs
      exact .inr ⟨rfl, fun _ => Fields.storesIn_virtual (Pair.sets_right _ _).storesIn⟩
    · exact .inl (Pair.storesIn_leftCreator hs)
  obtain ⟨-, hread, hslots⟩ := order_of_entries_immaterial Pair.madeDraft hd Pair.sides
    Pair.sideOf hspreads Pair.entries_perm Pair.entries_nodup (.start .streamed) none
  exact ⟨d, hd, hcreate, (hread (hslots _ Pair.made_wellFormed rfl) _).mp hcreate⟩

/-! ### Two sides in one slot -/

namespace Pair

/-- A side, as a creator for the first argument. -/
def firstArgument (p : Property (Tree × Tree)) : Settable (Tree × Tree) :=
  { Settable.virtual p with kind := .creator, creatorIndex := some 0 }

/-- Makes pairs from the first argument, and says of both sides that this is theirs. -/
def crowded : Instantiator (Tree × Tree) where
  typeName := type.name
  makesEmpty := false
  makesFromValues := true
  make := .error (.noConstructor type.name)
  makeWith
    | some v :: _ => .ok ⟨type, (v.tree, .int .i64 0)⟩
    | _ => .ok (of 0 0)
  creators := [firstArgument leftProperty, firstArgument rightProperty]

/-- A draft for pairs whose sides share a slot. -/
def crowdedDraft : DeserializerDraft (Tree × Tree) := ⟨type, .object, true, [], crowded⟩

end Pair

/--
Two creators store into the two sides of a pair, but both claim the first argument. The bean
depends on which of them comes last.
-/
theorem crowded_pair_ordered :
    ∃ d, Pair.crowdedDraft.build = .ok d ∧ d.Spreads Pair.sides Pair.sideOf ∧
      Pair.entries.Perm Pair.entries.reverse ∧
      (Pair.entries.filterMap (·.key.toOption)).Nodup ∧
      d.create ⟨.start .streamed, .entries Pair.entries none⟩ = .ok (Pair.of 2 0) ∧
      d.create ⟨.start .streamed, .entries Pair.entries.reverse none⟩ = .ok (Pair.of 1 0) ∧
      Pair.of 2 0 ≠ Pair.of 1 0 := by
  obtain ⟨d, hd⟩ : ∃ d, Pair.crowdedDraft.build = .ok d := ⟨_, rfl⟩
  obtain ⟨-, hindexed⟩ := DeserializerDraft.indexed_of_build hd
  have hspreads : d.Spreads Pair.sides Pair.sideOf := by
    refine Pair.spreads hindexed ?_
    cases hd
    rintro s (hs | hs)
    · cases hs
    · rcases List.mem_pair.mp hs with rfl | rfl
      · exact .inl ⟨rfl, fun _ => Fields.storesIn_virtual (Pair.sets_left _ _).storesIn⟩
      · exact .inr ⟨rfl, fun _ => Fields.storesIn_virtual (Pair.sets_right _ _).storesIn⟩
  refine ⟨d, hd, hspreads, Pair.entries_perm, Pair.entries_nodup, ?_, ?_, ?_⟩
  · cases hd
    rfl
  · cases hd
    rfl
  · intro h
    cases h

end BeanBinding
