import BeanBinding.Proofs.Describing

/-!
# Where drafted writers stand

A draft has a writer for each member that can be read, and puts the writers in order by a
number: the declared index of the member, or a sentinel above every index. Two things make
this the order one expects.

- The sort is stable, so members of one number stay in the order in which they are listed.
- Indices fit into 32 bits, so none of them, however extreme, reaches the sentinel, and the
  members without one come last.

Nothing else about the members bears on their order.
-/

namespace BeanBinding

variable {σ : Type}

/-- A list in which nothing of a kind stands behind anything else is cut in two by the kind. -/
theorem filter_append_filter_not {α : Type} {p : α → Bool} {l : List α}
    (h : l.Pairwise fun a b => p b = true → p a = true) :
    l.filter p ++ l.filter (fun a => !p a) = l := by
  induction l with
  | nil => rfl
  | cons a l ih =>
    obtain ⟨ha, hl⟩ := List.pairwise_cons.mp h
    cases hp : p a with
    | true =>
      rw [List.filter_cons_of_pos hp, List.filter_cons_of_neg (by simp [hp]), List.cons_append,
        ih hl]
    | false =>
      -- whatever follows is not of the kind either
      have hnone : l.filter p = [] := by
        rw [List.filter_eq_nil_iff]
        intro b hb hpb
        rw [ha b hb hpb] at hp
        cases hp
      have hrest := ih hl
      rw [hnone, List.nil_append] at hrest
      rw [List.filter_cons_of_neg (by simp [hp]), List.filter_cons_of_pos (by simp [hp]), hnone,
        List.nil_append, hrest]

namespace Description

/-- The description of the members that can be read, as they are listed. -/
def readable (d : Description σ) : Description σ :=
  { d with members := SerializerDraft.readableMembers d }

/-- The members that declare an index, in the order in which they are written. -/
def placed (d : Description σ) : List (Member σ) :=
  d.ranked.filter fun m => m.metadata.index.isSome

/-- The members that declare no index, as they are listed. -/
def unplaced (d : Description σ) : List (Member σ) :=
  d.members.filter fun m => !m.metadata.index.isSome

/-- Every declared index fits into 32 bits. -/
def InRange (d : Description σ) : Prop :=
  ∀ m ∈ d.members, ∀ i ∈ m.metadata.index, IntKind.i32.holds i = true

/-- An index that annotations declare fits into 32 bits. -/
theorem holds_of_declare {kind : MemberKind} {p : Property σ} {i : Int}
    (hi : i ∈ (Member.declare kind p).metadata.index) : IntKind.i32.holds i = true :=
  (Option.filter_eq_some_iff.mp hi).2

variable {d : Description σ}

theorem InRange.readable (h : d.InRange) : d.readable.InRange :=
  fun m hm => h m (List.mem_of_mem_filter hm)

/-! ## Members of one rank -/

/-- Members that are alike in rank stay in the order in which they are listed. -/
theorem filter_ranked {p : Member σ → Bool}
    (hp : ∀ m n : Member σ, p m = true → p n = true → m.rank = n.rank) :
    d.ranked.filter p = d.members.filter p := by
  have halike : (d.members.filter p).Pairwise fun m n => decide (m.rank ≤ n.rank) = true := by
    refine List.pairwise_of_forall_mem_list ?_
    intro m hm n hn
    rw [hp m n (List.of_mem_filter hm) (List.of_mem_filter hn)]
    exact decide_eq_true (Int.le_refl _)
  have hsublist : (d.members.filter p).Sublist d.ranked := by
    refine List.sublist_mergeSort ?_ ?_ halike List.filter_sublist
    · intro a b c hab hbc
      rw [decide_eq_true_eq] at hab hbc ⊢
      omega
    · intro a b
      rw [Bool.or_eq_true, decide_eq_true_eq, decide_eq_true_eq]
      omega
  have hkept := hsublist.filter p
  rw [List.filter_filter] at hkept
  simp only [Bool.and_self] at hkept
  exact (hkept.eq_of_length (d.ranked_perm.filter p).length_eq.symm).symm

theorem placed_perm (d : Description σ) :
    d.placed.Perm (d.members.filter fun m => m.metadata.index.isSome) :=
  d.ranked_perm.filter _

/-- Members of one index stay in the order in which they are listed. -/
theorem filter_placed (d : Description σ) (i : Int) :
    (d.placed.filter fun m => m.metadata.index = some i) =
      d.members.filter fun m => m.metadata.index = some i := by
  rw [placed, List.filter_filter]
  have hindex : (fun m : Member σ => decide (m.metadata.index = some i) && m.metadata.index.isSome)
      = fun m => decide (m.metadata.index = some i) := by
    funext m
    cases m.metadata.index with
    | none => simp
    | some k => simp
  rw [hindex]
  refine filter_ranked fun m n hm hn => ?_
  rw [decide_eq_true_eq] at hm hn
  rw [Member.rank, Member.rank, hm, hn]

/-- Indices do not decrease along the members that declare one. -/
theorem placed_ordered (d : Description σ) :
    d.placed.Pairwise fun m n =>
      ∀ i ∈ m.metadata.index, ∀ j ∈ n.metadata.index, i ≤ j := by
  refine (d.ranked_ordered.filter _).imp ?_
  intro m n hmn i hi j hj
  rwa [Member.rank, Member.rank, Option.mem_def.mp hi, Option.mem_def.mp hj] at hmn

/-! ## Indices against the sentinel -/

/-- The members that declare an index are those below the sentinel. -/
theorem InRange.rank_lt_iff (hd : d.InRange) {m : Member σ} (hm : m ∈ d.members) :
    m.rank < IntKind.i64.highest ↔ m.metadata.index.isSome = true := by
  unfold Member.rank
  cases hi : m.metadata.index with
  | none => simp
  | some i =>
    have hheld := hd m hm i hi
    simp only [IntKind.holds, Bool.and_eq_true, decide_eq_true_eq] at hheld
    have hhighest : IntKind.i32.highest < IntKind.i64.highest := by decide
    simpa using Int.lt_of_le_of_lt hheld.2 hhighest

/-- The members without an index stand behind all others, in the order in which they are listed. -/
theorem InRange.ranked_eq (hd : d.InRange) : d.ranked = d.placed ++ d.unplaced := by
  have hunplaced : (d.ranked.filter fun m => !m.metadata.index.isSome) = d.unplaced := by
    refine filter_ranked fun m n hm hn => ?_
    rw [Bool.not_eq_true', Option.isSome_eq_false_iff, Option.isNone_iff_eq_none] at hm hn
    rw [Member.rank, Member.rank, hm, hn]
  rw [← hunplaced, placed]
  refine (filter_append_filter_not ?_).symm
  refine d.ranked_ordered.imp_of_mem ?_
  intro m n hm hn hmn hindex
  have hlow := (hd.rank_lt_iff (d.ranked_perm.mem_iff.mp hn)).mpr hindex
  exact (hd.rank_lt_iff (d.ranked_perm.mem_iff.mp hm)).mp (Int.lt_of_le_of_lt hmn hlow)

end Description

/-! ## Drafted writers -/

theorem metadata_writerOf (config : Config) (m : Member σ) :
    (SerializerDraft.writerOf config m).metadata = m.metadata := by
  unfold SerializerDraft.writerOf Writer.withInclusion
  cases m.inclusion.getD config.inclusion with
  | always | nonNull | nonEmpty | nonDefault => rfl

/-- The members that can be read are written in the order of their ranks. -/
theorem writers_eq_ranked (d : Description σ) (config : Config) :
    (SerializerDraft.ofDescription d config).writers =
      d.readable.ranked.map (SerializerDraft.writerOf config) := by
  show SerializerDraft.sortByKey _ = _
  rw [sortByKey_map_writerOf]
  rfl

/--
**Writers are drafted in the order of the declared indices.**

A draft has one writer for each member that can be read, with the name, the metadata and
the getter of the member. First come those of members that declare an index. Their indices,
which may be any numbers of 32 bits, do not decrease, and members of one index keep the order
in which they are listed. Behind them come all others, in the order in which they are listed.
-/
theorem drafted_in_index_order {d : Description σ} (hd : d.InRange) (config : Config) :
    let readable := d.members.filter fun m => m.property.isReadable
    let indexed := readable.filter fun m => m.metadata.index.isSome
    let others := readable.filter fun m => !m.metadata.index.isSome
    (∀ m ∈ readable, let w := SerializerDraft.writerOf config m
      w.name = m.name ∧ w.metadata = m.metadata ∧ w.accessor = .member m.property) ∧
    ∃ placed : List (Member σ),
      (SerializerDraft.ofDescription d config).writers =
        (placed ++ others).map (SerializerDraft.writerOf config) ∧
      placed.Perm indexed ∧
      (placed.Pairwise fun m n => ∀ i ∈ m.metadata.index, ∀ j ∈ n.metadata.index, i ≤ j) ∧
      ∀ i : Int, (placed.filter fun m => m.metadata.index = some i) =
        readable.filter fun m => m.metadata.index = some i := by
  intro readable indexed others
  refine ⟨fun m _ =>
      ⟨name_writerOf config m, metadata_writerOf config m, accessor_writerOf config m⟩,
    d.readable.placed, ?_, d.readable.placed_perm, d.readable.placed_ordered,
    d.readable.filter_placed⟩
  rw [writers_eq_ranked, hd.readable.ranked_eq]
  rfl

/-! ### A pair with one side far to the front -/

namespace Pair

/-- A pair that lists its left side first, and declares the lowest of all places for the right. -/
def rightFirst : Description (Tree × Tree) where
  bean := type
  members := [.declare .method leftProperty,
    .declare .method (rightProperty (placed IntKind.i32.lowest))]
  fresh := none
  shape := none

theorem rightFirst_inRange : rightFirst.InRange := by
  intro m hm
  rcases List.mem_pair.mp hm with rfl | rfl
  · exact fun i hi => Description.holds_of_declare hi
  · exact fun i hi => Description.holds_of_declare hi

end Pair

/-- The side with the lowest place is written before the one without. -/
theorem lowest_index_first :
    Pair.rightFirst.InRange ∧
      (SerializerDraft.ofDescription Pair.rightFirst .default).writers.map (·.name) =
        ["right", "left"] := by
  refine ⟨Pair.rightFirst_inRange, ?_⟩
  obtain ⟨-, placed, hwriters, hperm, -⟩ :=
    drafted_in_index_order Pair.rightFirst_inRange .default
  have hplaced :
      placed = [.declare .method (Pair.rightProperty (Pair.placed IntKind.i32.lowest))] :=
    List.perm_singleton.mp hperm
  rw [hwriters, hplaced]
  rfl

end BeanBinding
