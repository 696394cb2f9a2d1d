import BeanBinding.Proofs.Delivering

/-!
# How values get into a bean

A bean is filled from entries or from items, when it is new, when it is updated, or at
last when its values have waited for it. Every value takes the same way: it is decoded,
it is set, and then what it has left unread is looked at. So any document is a list of
values to `hand` over, one after the other, and an ending.

Whatever the document is like, handing it over fails for a reason that lies in the
document, or because the bean refuses a value (`error_of_update`, `error_of_create`).
-/

namespace BeanBinding

variable {σ : Type}

/-! ## Changes in a row -/

/-- What comes next only sees what was left behind. -/
theorem change_bind_congr {ε α β : Type} {x y : ChangeM ε σ α} {f : α → ChangeM ε σ β}
    {bean : Bean σ} (h : x bean = y bean) : (x >>= f) bean = (y >>= f) bean := by
  show EStateM.bind x f bean = EStateM.bind y f bean
  rw [EStateM.bind, EStateM.bind, h]

/-- Changes in a row are other changes in a row if they agree on the beans that can be met. -/
theorem forM_congr_on {ε α : Type} (met : Bean σ → Prop) {step step' : α → ChangeM ε σ Unit}
    {xs : List α} (hstep : ∀ x ∈ xs, ∀ bean, met bean → step x bean = step' x bean)
    (hmet : ∀ x ∈ xs, ∀ bean bean', met bean → step' x bean = .ok () bean' → met bean')
    {bean : Bean σ} (h : met bean) :
    (forM xs step : ChangeM ε σ Unit) bean = (forM xs step' : ChangeM ε σ Unit) bean := by
  induction xs generalizing bean with
  | nil => rfl
  | cons x xs ih =>
    rw [List.forM_cons, List.forM_cons]
    have hx := hstep x List.mem_cons_self bean h
    cases hrun : step' x bean with
    | error e left =>
      rw [change_bind_error hrun, change_bind_error (hx.trans hrun)]
    | ok a next =>
      rw [change_bind_ok hrun, change_bind_ok (hx.trans hrun)]
      exact ih (fun y hy => hstep y (List.mem_cons_of_mem x hy))
        (fun y hy => hmet y (List.mem_cons_of_mem x hy))
        (hmet x List.mem_cons_self bean next h hrun)

/-- Changes in a row that succeed are made one by one. -/
theorem exists_ok_of_forM {ε α : Type} {step : α → ChangeM ε σ Unit} {xs : List α}
    {bean left : Bean σ} (h : (forM xs step : ChangeM ε σ Unit) bean = .ok () left) {x : α}
    (hx : x ∈ xs) : ∃ reached next, step x reached = .ok () next := by
  induction xs generalizing bean with
  | nil => cases hx
  | cons y ys ih =>
    rw [List.forM_cons] at h
    obtain ⟨_, next, hy, hys⟩ := change_bind_eq_ok_iff.mp h
    rcases List.mem_cons.mp hx with rfl | hx
    · exact ⟨bean, next, hy⟩
    · exact ih hys hx

/-- Changes in a row may be left out if they change nothing. -/
theorem forM_filter {ε α : Type} {step : α → ChangeM ε σ Unit} {p : α → Bool} {xs : List α}
    (h : ∀ x ∈ xs, p x = false → step x = pure ()) :
    (forM (xs.filter p) step : ChangeM ε σ Unit) = forM xs step := by
  induction xs with
  | nil => rfl
  | cons x xs ih =>
    have hrest := ih fun y hy => h y (List.mem_cons_of_mem x hy)
    cases hx : p x with
    | true => rw [List.filter_cons_of_pos hx, List.forM_cons, List.forM_cons, hrest]
    | false =>
      rw [List.filter_cons_of_neg (by simp [hx]), List.forM_cons, hrest,
        h x List.mem_cons_self hx, pure_bind]

namespace Deserializer

variable {d : Deserializer σ} {r : Position} {ending : Option Fault}

theorem lift_eq_error_iff {α : Type} {x : Except ReadError α} {bean left : Bean σ}
    {e : ReadError} : lift x bean = .error e left ↔ x = .error e ∧ bean = left := by
  cases x with
  | ok a => simp [lift]
  | error e' => simp [lift]

theorem lift_eq_ok_iff {α : Type} {x : Except ReadError α} {bean bean' : Bean σ} {a : α} :
    lift x bean = .ok a bean' ↔ x = .ok a ∧ bean = bean' := by
  cases x with
  | ok a => simp [lift]
  | error e' => simp [lift]

/-- A change before something that leaves the bean alone. -/
theorem bind_lift_eq_error {x : ChangeM ReadError σ Unit} {y : Except ReadError Unit}
    {bean left : Bean σ} {e : ReadError}
    (h : (x >>= fun _ => lift y) bean = .error e left) :
    x bean = .error e left ∨ y = .error e := by
  cases hx : x bean with
  | error e' left' =>
    rw [change_bind_error hx] at h
    exact .inl h
  | ok a next =>
    rw [change_bind_ok hx] at h
    exact .inr (lift_eq_error_iff.mp h).1

/-! ## Handing values over -/

/-- Hands over a value if there is one, and then fails if something is wrong behind it. -/
def hand (d : Deserializer σ) (s : Settable σ) (value : Except ReadError (Option Value))
    (rest : Except ReadError Unit) : ChangeM ReadError σ Unit := do
  d.set s (← lift value)
  lift rest

/-- Hands over an entry, to what is found under its name. -/
def handEntry (d : Deserializer σ) (find : String → Option (Settable σ)) (r : Position)
    (e : Entry) : ChangeM ReadError σ Unit := do
  let name ← lift e.key
  match find name with
  | some s => d.hand s (decodeEntry s r e.value) (checkEntryRest s r e.value)
  | none => lift (d.skipUnknown name e.value)

/-- Hands over the entries of a document, one after the other. -/
def handEntries (d : Deserializer σ) (find : String → Option (Settable σ)) (r : Position)
    (ending : Option Fault) (es : List Entry) : ChangeM ReadError σ Unit := do
  forM es (d.handEntry find r)
  lift (finish ending)

/-- Hands over an item. -/
def handItem (d : Deserializer σ) (r : Position) (x : Settable σ × Item) :
    ChangeM ReadError σ Unit :=
  d.hand x.1 (decodeItem x.1 r x.2) (checkItemRest x.1 r x.2)

theorem hand_eq (s : Settable σ) (value : Except ReadError (Option Value))
    (rest : Except ReadError Unit) (bean : Bean σ) :
    d.hand s value rest bean =
      match value with
      | .error e => .error e bean
      | .ok v =>
        match s.set v bean with
        | .error e left => .error (.codec (.access d.bean.name s.name e)) left
        | .ok () next => lift rest next := by
  cases value with
  | error e => rfl
  | ok v =>
    have hlift : (lift (.ok v) : ChangeM ReadError σ _) bean = .ok v bean := rfl
    rw [hand, change_bind_ok hlift]
    dsimp only
    cases hset : s.set v bean with
    | error e left =>
      have hs : d.set s v bean = .error (.codec (.access d.bean.name s.name e)) left := by
        rw [set, hset]
      rw [change_bind_error hs]
    | ok a next => rw [change_bind_ok (set_eq_ok_iff.mpr hset)]

/-! ## Documents, value by value -/

theorem handEntries_cons (find : String → Option (Settable σ)) (e : Entry) (es : List Entry) :
    d.handEntries find r ending (e :: es) =
      (do d.handEntry find r e; d.handEntries find r ending es) := by
  simp only [handEntries, List.forM_cons, bind_assoc]

theorem updateEntries_eq_handed (es : List Entry) :
    d.updateEntries r ending es = d.handEntries d.updated r ending es := by
  induction es with
  | nil => rfl
  | cons e es ih =>
    rw [updateEntries, handEntries_cons, ih, handEntry]
    simp only [bind_assoc]
    congr 1
    funext name
    cases d.updated name with
    | some s => simp only [hand, bind_assoc]
    | none => rfl

theorem fillEntries_eq_handed (es : List Entry) :
    d.fillEntries r ending es = d.handEntries d.property r ending es := by
  induction es with
  | nil => rfl
  | cons e es ih =>
    rw [fillEntries, handEntries_cons, ih, handEntry]
    simp only [bind_assoc]
    congr 1
    funext name
    cases d.property name with
    | some s => simp only [hand, bind_assoc]
    | none => rfl

theorem updateItems_eq_forM (slots : List (Slot × Settable σ)) (items : List Item) :
    d.updateItems r ending slots items = (do
      forM ((slots.map (·.2)).zip items) (d.handItem r)
      lift (checkSurplus d.elementOrder.length (items.drop slots.length) ending)) := by
  induction slots generalizing items with
  | nil => rw [updateItems, List.map_nil, List.zip_nil_left, List.forM_nil, pure_bind]; rfl
  | cons slot slots ih =>
    cases items with
    | nil => rw [updateItems, List.zip_nil_right, List.forM_nil, pure_bind]; rfl
    | cons item items =>
      rw [updateItems, ih, List.map_cons, List.zip_cons_cons, List.forM_cons, handItem, hand]
      simp only [bind_assoc]
      rfl

theorem setAll_eq_forM (xs : List (Settable σ × Option Value)) :
    d.setAll xs = forM xs fun x => d.set x.1 x.2 := by
  induction xs with
  | nil => rfl
  | cons x xs ih => rw [setAll, List.forM_cons, ih]

/-! ## Errors -/

theorem error_of_hand {s : Settable σ} {value : Except ReadError (Option Value)}
    {rest : Except ReadError Unit} (hvalue : ∀ e, value = .error e → e.OfDocument)
    (hrest : ∀ e, rest = .error e → e.OfDocument) {bean left : Bean σ} {e : ReadError}
    (h : d.hand s value rest bean = .error e left) : e.OfDocument ∨ d.Refuses e := by
  rw [hand_eq] at h
  cases value with
  | error e' =>
    cases h
    exact .inl (hvalue e rfl)
  | ok v =>
    dsimp only at h
    cases hset : s.set v bean with
    | error cause left' =>
      rw [hset] at h
      cases h
      exact .inr ⟨s.name, cause, rfl⟩
    | ok a next =>
      rw [hset] at h
      exact .inl (hrest e (lift_eq_error_iff.mp h).1)

theorem error_of_handEntry {find : String → Option (Settable σ)} {e : Entry}
    (hkey : ∀ x, e.key = .error x → x.OfDocument) {bean left : Bean σ} {x : ReadError}
    (h : d.handEntry find r e bean = .error x left) : x.OfDocument ∨ d.Refuses x := by
  rw [handEntry] at h
  cases hname : e.key with
  | error x' =>
    have hlift : (lift e.key : ChangeM ReadError σ String) bean = .error x' bean := by
      rw [hname]
      rfl
    rw [change_bind_error hlift] at h
    cases h
    exact .inl (hkey x hname)
  | ok name =>
    have hlift : (lift e.key : ChangeM ReadError σ String) bean = .ok name bean := by
      rw [hname]
      rfl
    rw [change_bind_ok hlift] at h
    cases hfind : find name with
    | none =>
      rw [hfind] at h
      exact .inl (ofDocument_of_skipUnknown (lift_eq_error_iff.mp h).1)
    | some s =>
      rw [hfind] at h
      exact error_of_hand (fun _ => ofDocument_of_decodeEntry)
        (fun _ => ofDocument_of_checkEntryRest) h

theorem ofDocument_of_decodeItem {s : Settable σ} {item : Item} {e : ReadError}
    (h : decodeItem s r item = .error e) : e.OfDocument :=
  ofDocument_of_decode h

/-- Entries are handed over, unless the document is wrong or the bean refuses a value. -/
theorem error_of_entries {find : String → Option (Settable σ)} {es : List Entry}
    (hkeys : ∀ e ∈ es, ∀ x, e.key = .error x → x.OfDocument) {bean left : Bean σ} {x : ReadError}
    (h : d.handEntries find r ending es bean = .error x left) : x.OfDocument ∨ d.Refuses x := by
  rcases bind_lift_eq_error h with hentries | hending
  · obtain ⟨before, e, after, reached, rfl, -, he⟩ := forM_eq_error_iff.mp hentries
    exact error_of_handEntry (hkeys e (by simp)) he
  · exact .inl (ofDocument_of_finish hending)

/-- So are items. -/
theorem error_of_items {slots : List (Slot × Settable σ)} {items : List Item}
    {bean left : Bean σ} {x : ReadError}
    (h : d.updateItems r ending slots items bean = .error x left) :
    x.OfDocument ∨ d.Refuses x := by
  rw [updateItems_eq_forM] at h
  rcases bind_lift_eq_error h with hitems | hending
  · obtain ⟨before, e, after, reached, -, -, he⟩ := forM_eq_error_iff.mp hitems
    exact error_of_hand (fun _ => ofDocument_of_decodeItem)
      (fun _ => ofDocument_of_checkItemRest) he
  · exact .inl (ofDocument_of_checkSurplus hending)

/-- **A bean of the right type is updated, or else the document is wrong or the bean refuses
a value.** -/
theorem error_of_update {document : Document} (hgiven : document.Given) {bean left : Bean σ}
    (hb : bean.type = d.bean) {x : ReadError} (h : d.update document bean = .error x left) :
    x.OfDocument ∨ d.Refuses x := by
  have hget : (get : ChangeM ReadError σ (Bean σ)) bean = .ok bean bean := rfl
  rw [update, change_bind_ok hget, if_neg (not_not.mpr hb)] at h
  split at h
  · rename_i es ending hshape hcontent
    rw [hshape] at hcontent
    rw [updateEntries_eq_handed] at h
    exact error_of_entries (fun e he x hx => hgiven.ofDocument_of_key hcontent he hx) h
  · exact error_of_items h
  · cases h
    exact .inl (ofDocument_notABean _)

/-- Why no bean was read: the document is wrong, an argument is missing, none is made, or it
refuses a value. -/
inductive Fails (d : Deserializer σ) : ReadError → Prop where
  | document {e : ReadError} (h : e.OfDocument) : Fails d e
  | missing (name : String) : Fails d (.codec (.missingProperty d.bean.name name))
  | made (cause : InstantiationError) : Fails d (.codec (.instantiation d.bean.name cause))
  | refused (name : String) (cause : AccessError) :
      Fails d (.codec (.access d.bean.name name cause))

theorem fails_of_filled {x : ReadError} (h : x.OfDocument ∨ d.Refuses x) : d.Fails x := by
  rcases h with hdocument | ⟨name, cause, rfl⟩
  · exact .document hdocument
  · exact .refused name cause

theorem fails_of_fill {change : ChangeM ReadError σ Unit}
    (hchange : ∀ made left x, change made = .error x left → x.OfDocument ∨ d.Refuses x)
    {x : ReadError} (h : fill d.instantiate change = .error x) : d.Fails x := by
  rcases error_of_fill h with ⟨cause, -, rfl⟩ | ⟨made, left, hfail⟩
  · exact .made cause
  · exact fails_of_filled (hchange made left x hfail)

theorem fails_of_complete {x : Except ReadError (Pending σ)} (hx : d.Proper x) {e : ReadError}
    (h : x >>= d.complete = .error e) : d.Fails e := by
  cases x with
  | error e' =>
    cases h
    exact .document hx
  | ok p =>
    have hcomplete : d.complete p = .error e := h
    rcases error_of_complete hcomplete with ⟨s, -, rfl⟩ | ⟨cause, -, rfl⟩ | hrefused
    · exact .missing s.name
    · exact .made cause
    · exact fails_of_filled (.inr hrefused)

/-- **A bean is created, or else one of four things went wrong.** -/
theorem fails_of_create {document : Document} (hgiven : document.Given) {x : ReadError}
    (h : d.create document = .error x) : d.Fails x := by
  have hpending : d.pending.arguments.length = d.creators.length := List.length_replicate
  unfold create at h
  dsimp only at h
  split at h
  · rename_i es ending hshape hcontent
    rw [hshape] at hcontent
    have hkeys := fun e he x hx => hgiven.ofDocument_of_key hcontent (e := e) he (x := x) hx
    -- with creators the bean is made last, without them first
    split at h
    · exact fails_of_complete (proper_collectEntries hkeys hpending) h
    · rw [fillEntries_eq_handed] at h
      exact fails_of_fill (fun _ _ _ => error_of_entries hkeys) h
  · split at h
    · exact fails_of_complete (proper_collectItems hpending) h
    · rw [fillItems_eq_updateItems] at h
      exact fails_of_fill (fun _ _ _ => error_of_items) h
  · cases h
    exact .document (ofDocument_notABean _)

end Deserializer

end BeanBinding
