import Mathlib.Data.List.Forall2
import Mathlib.Data.List.Nodup
import Mathlib.Data.List.Sort
import ProductTemplates.Proofs.Digest
import ProductTemplates.Text.Order

/-! Sorting keeps what is sorted, and what is sorted already stays as it is. Texts are ordered as their
bytes are, and what has equal texts stays in order; where no text stands twice, the order of what is
sorted does not matter. -/
namespace ProductTemplates.Text

variable {α β : Type} {key : α → String} {xs ys : List α} {x : α}

theorem mem_sortOn : x ∈ sortOn key xs ↔ x ∈ xs := (List.mergeSort_perm xs _).mem_iff

theorem perm_sortOn (perm : xs.Perm ys) : (sortOn key xs).Perm (sortOn key ys) :=
  (List.mergeSort_perm xs _).trans (perm.trans (List.mergeSort_perm ys _).symm)

theorem nodup_sortOn {f : α → β} (distinct : (xs.map f).Nodup) :
    ((sortOn key xs).map f).Nodup := ((List.mergeSort_perm xs _).map f).nodup_iff.2 distinct

theorem decide_le_trans (a b c : α) (ab : decide (key a ≤ key b) = true)
    (bc : decide (key b ≤ key c) = true) : decide (key a ≤ key c) = true := by
  rw [decide_eq_true_eq] at ab bc ⊢
  exact String.le_trans ab bc

theorem decide_le_total (a b : α) : (decide (key a ≤ key b) || decide (key b ≤ key a)) = true := by
  simpa using String.le_total (key a) (key b)

theorem pairwise_sortOn (key : α → String) (xs : List α) :
    (sortOn key xs).Pairwise fun a b => key a ≤ key b := by
  have sorted := List.pairwise_mergeSort (@decide_le_trans α key) decide_le_total xs
  exact sorted.imp fun h => of_decide_eq_true h

/-- Without repeated texts there is one order. -/
theorem eq_of_perm_of_pairwise (sorted : xs.Pairwise fun a b => key a ≤ key b)
    (sorted' : ys.Pairwise fun a b => key a ≤ key b) (perm : xs.Perm ys)
    (distinct : (xs.map key).Nodup) : xs = ys := by
  refine perm.eq_of_pairwise (fun a b here there below above => ?_) sorted sorted'
  have same := String.le_antisymm below above
  exact List.inj_on_of_nodup_map distinct here (perm.mem_iff.2 there) same

theorem sortOn_of_pairwise (sorted : xs.Pairwise fun a b => key a ≤ key b) : sortOn key xs = xs :=
  List.mergeSort_of_pairwise (sorted.imp fun h => decide_eq_true h)

theorem sortOn_cons (key : α → String) (x : α) (xs : List α) :
    sortOn key (x :: xs) = (sortOn key xs).orderedInsert (fun a b => key a ≤ key b) x := by
  obtain ⟨small, large, whole, rest, less⟩ :=
    List.mergeSort_cons (@decide_le_trans α key) decide_le_total x xs
  have sorted := pairwise_sortOn key (x :: xs)
  rw [sortOn, whole, sortOn, rest]
  rw [sortOn, whole] at sorted
  clear whole rest
  induction small with
  | nil =>
    cases large with
    | nil => rfl
    | cons y ys =>
      have larger : key x ≤ key y := List.rel_of_pairwise_cons sorted List.mem_cons_self
      rw [List.nil_append, List.nil_append, List.orderedInsert_cons, if_pos larger]
  | cons y small ih =>
    rw [List.forall_mem_cons] at less
    have smaller : ¬ key x ≤ key y := by simpa using less.1
    rw [List.cons_append, List.cons_append, List.orderedInsert_cons, if_neg smaller,
      ← ih less.2 (List.Pairwise.of_cons sorted)]

theorem sublist_sortOn (less : xs.Sublist ys) : (sortOn key xs).Sublist (sortOn key ys) := by
  have trans : IsTrans α fun a b => key a ≤ key b := ⟨fun _ _ _ => String.le_trans⟩
  induction less with
  | slnil => exact List.Sublist.refl _
  | cons y _ ih =>
    rw [sortOn_cons]
    exact ih.trans (List.sublist_orderedInsert _ _)
  | cons_cons y _ ih =>
    rw [sortOn_cons, sortOn_cons]
    exact ih.orderedInsert_sublist y (pairwise_sortOn key _)

theorem forall₂_orderedInsert {R : α → β → Prop} {key' : β → String} {y : β}
    (same : ∀ x y, R x y → key x = key' y) (related : R x y) {ys : List β}
    (rest : List.Forall₂ R xs ys) :
    List.Forall₂ R (xs.orderedInsert (fun a b => key a ≤ key b) x)
      (ys.orderedInsert (fun a b => key' a ≤ key' b) y) := by
  induction rest with
  | nil => exact .cons related .nil
  | cons other rest ih =>
    rw [List.orderedInsert_cons, List.orderedInsert_cons, same _ _ related, same _ _ other]
    split
    · exact .cons related (.cons other rest)
    · exact .cons other ih

theorem forall₂_sortOn {R : α → β → Prop} {key' : β → String} {ys : List β}
    (same : ∀ x y, R x y → key x = key' y) (related : List.Forall₂ R xs ys) :
    List.Forall₂ R (sortOn key xs) (sortOn key' ys) := by
  induction related with
  | nil => simp [sortOn]
  | cons first _ ih =>
    rw [sortOn_cons, sortOn_cons]
    exact forall₂_orderedInsert same first ih

/-- What is related with equal texts to a part of a list is so when both are sorted. -/
theorem sublistForall₂_sortOn {R : α → β → Prop} {key' : β → String} {ys : List β}
    (same : ∀ x y, R x y → key x = key' y) (related : List.SublistForall₂ R xs ys) :
    List.SublistForall₂ R (sortOn key xs) (sortOn key' ys) := by
  obtain ⟨kept, pairs, less⟩ := List.sublistForall₂_iff.1 related
  exact List.sublistForall₂_iff.2 ⟨_, forall₂_sortOn same pairs, sublist_sortOn less⟩

/-- A smaller character has the smaller bytes, whatever follows. -/
theorem utf8EncodeChar_lt {c d : Char} (h : c < d) (rest more : List UInt8) :
    String.utf8EncodeChar c ++ rest < String.utf8EncodeChar d ++ more := by
  have less : c.val.toNat < d.val.toNat := h
  have small : d.val.toNat < 0x110000 := by
    rcases d.valid with low | ⟨-, high⟩
    · exact Nat.lt_trans low (by decide)
    · exact high
  have digits (n : Nat) : n / 4096 = n / 64 / 64 ∧ n / 262144 = n / 64 / 64 / 64 := by omega
  unfold String.utf8EncodeChar
  simp only [(digits _).1, (digits _).2]
  -- the first byte grows with the length; of equal lengths the digits decide one after another
  repeat' split
  all_goals
    simp only [List.cons_append, List.nil_append, List.cons_lt_cons_iff, UInt8.lt_iff_toNat_lt,
      ← UInt8.toNat_inj, UInt8.toNat_ofNat']
    omega

theorem utf8EncodeChar_ne_nil (c : Char) : String.utf8EncodeChar c ≠ [] := by
  unfold String.utf8EncodeChar
  simp only
  repeat' split
  all_goals exact List.cons_ne_nil _ _

theorem utf8_lt_of_lt {s t : String} (h : s < t) : s.toUTF8.toList < t.toUTF8.toList := by
  have grows {cs ds : List Char} (h : cs < ds) :
      cs.flatMap String.utf8EncodeChar < ds.flatMap String.utf8EncodeChar := by
    induction cs generalizing ds with
    | nil =>
      cases ds with
      | nil => contradiction
      | cons d ds =>
        obtain ⟨b, bs, bytes⟩ := List.exists_cons_of_ne_nil (utf8EncodeChar_ne_nil d)
        rw [List.flatMap_cons, bytes]
        exact List.nil_lt_cons _ _
    | cons c cs ih =>
      cases ds with
      | nil => contradiction
      | cons d ds =>
        rw [List.flatMap_cons, List.flatMap_cons]
        rcases List.cons_lt_cons_iff.1 h with less | ⟨rfl, later⟩
        · exact utf8EncodeChar_lt less _ _
        · exact List.append_left_lt (ih later)
  rw [Digest.utf8_eq, Digest.utf8_eq]
  exact grows h

/-- Texts are ordered as their bytes are. -/
theorem utf8_le_iff {s t : String} : s.toUTF8.toList ≤ t.toUTF8.toList ↔ s ≤ t := by
  rw [← List.not_lt, ← String.not_lt]
  constructor
  · exact fun less above => less (utf8_lt_of_lt above)
  · intro less above
    by_cases same : s = t
    · subst same
      exact List.lt_irrefl _ above
    · have below : s < t := Std.lt_of_le_of_ne (String.not_lt.1 less) same
      exact List.lt_asymm above (utf8_lt_of_lt below)

/-- A list sorted by the bytes of a text, in which those of equal texts stay in order. -/
structure IsSorted (key : α → String) (xs sorted : List α) : Prop where
  increasing : sorted.Pairwise fun a b => (key a).toUTF8.toList ≤ (key b).toUTF8.toList
  stable : ∀ k, sorted.filter (key · == k) = xs.filter (key · == k)

theorem sortOn_isSorted (key : α → String) (xs : List α) : IsSorted key xs (sortOn key xs) where
  increasing := (pairwise_sortOn key xs).imp utf8_le_iff.2
  stable k := by
    have equal : (xs.filter (key · == k)).Pairwise fun a b => decide (key a ≤ key b) = true := by
      rw [List.pairwise_filter]
      refine List.pairwise_of_forall fun a b first second => ?_
      have same : key a = key b := (eq_of_beq first).trans (eq_of_beq second).symm
      exact decide_eq_true (same ▸ String.le_refl (key a))
    have kept := (List.sublist_mergeSort decide_le_trans decide_le_total equal
      List.filter_sublist).filter (key · == k)
    simp only [List.filter_filter, Bool.and_self] at kept
    refine (kept.eq_of_length ?_).symm
    exact ((List.mergeSort_perm xs _).filter _).length_eq.symm

end ProductTemplates.Text
