import ProductTemplates.Product.Content
import ProductTemplates.Proofs.Digest
import ProductTemplates.Proofs.FileTree

/-! The bytes that stand for a product's content tell the content. A path ends in front of a byte
that no name holds, a file says how long it is, and a folder ends where the next path leads out of
it. -/
namespace ProductTemplates

namespace Content

inductive Sound : Content → Prop where
  | folder {entries : Contents} : (∀ e ∈ entries, IsFileName e.1) → (∀ e ∈ entries, Sound e.2) →
      Sound (.folder entries)
  | file {bytes : Bytes} : bytes.length < UInt64.size → Sound (.file bytes)

/-- The bytes that end a name, on the way to an entry or at it. -/
def IsSeparator (byte : UInt8) : Prop := byte = 0x00 ∨ byte = 0x2F ∨ byte = 0xFF

/-- The byte behind the path of an entry. -/
def mark : Content → UInt8
  | folder _ => 0xFF
  | file _ => 0x00

def inside (path : String) : Content → Bytes
  | folder entries => bytesOfAll path entries
  | file bytes => Digest.littleEndian 8 bytes.length ++ bytes

/-- What the paths in a folder begin with. -/
def stem (base : String) : String := if base = "" then "" else base ++ "/"

/-- What may follow the entries of a folder: nothing, or a path that leads elsewhere. -/
def Closed (base : String) (rest : Bytes) : Prop :=
  rest = [] ∨ ¬ (stem base).toUTF8.toList <+: rest

variable {base name other path : String} {content : Content} {rest : Bytes}

theorem bytes_eq (path : String) (content : Content) :
    bytes path content = path.toUTF8.toList ++ content.mark :: inside path content := by
  cases content <;> simp [bytes, mark, inside]

theorem bytesOfAll_cons (base name : String) (content : Content) (cs : Contents) :
    bytesOfAll base ((name, content) :: cs) =
      bytes (stem base ++ name) content ++ bytesOfAll base cs := by
  rw [bytesOfAll, stem]
  split <;> simp

theorem isSeparator_mark (content : Content) : IsSeparator content.mark := by
  cases content <;> simp [mark, IsSeparator]

theorem mark_ne_slash (content : Content) : content.mark ≠ 0x2F := by
  cases content <;> simp [mark]

theorem not_separator_of_mem (clean : IsFileName name) :
    ∀ byte ∈ name.toUTF8.toList, ¬ IsSeparator byte := by
  rintro byte member (rfl | rfl | rfl)
  · exact Digest.not_mem_utf8 clean.no_nul (by decide) (by decide) member
  · exact Digest.not_mem_utf8 clean.no_slash (by decide) (by decide) member
  · exact Digest.ff_not_mem_utf8 name member

/-- A list that ends in front of a separator is told from what follows. -/
theorem split_unique {xs ys more more' : Bytes} {x y : UInt8}
    (clean : ∀ byte ∈ xs, ¬ IsSeparator byte) (clean' : ∀ byte ∈ ys, ¬ IsSeparator byte)
    (hx : IsSeparator x) (hy : IsSeparator y) (same : xs ++ x :: more = ys ++ y :: more') :
    xs = ys ∧ x = y ∧ more = more' := by
  rcases List.append_eq_append_iff.1 same with ⟨gap, rfl, after⟩ | ⟨gap, rfl, after⟩
  · cases gap with
    | nil => simpa using after
    | cons z gap =>
      obtain rfl : x = z := (List.cons.inj after).1
      exact absurd hx (clean' x (by simp))
  · cases gap with
    | nil => simpa [eq_comm] using after
    | cons z gap =>
      obtain rfl : y = z := (List.cons.inj after).1
      exact absurd hy (clean y (by simp))

theorem stem_append_ne (clean : IsFileName name) : stem base ++ name ≠ "" := by
  intro empty
  exact clean.nonempty (String.append_eq_empty_iff.1 empty).2

theorem stem_child (clean : IsFileName name) :
    stem (stem base ++ name) = stem base ++ name ++ "/" := by
  rw [stem, if_neg (stem_append_ne clean)]

theorem Closed.child (closed : Closed base rest) (clean : IsFileName name) :
    Closed (stem base ++ name) rest := by
  rcases closed with empty | elsewhere
  · exact .inl empty
  · right
    intro within
    rw [stem_child clean, String.append_assoc, Digest.utf8_append] at within
    exact elsewhere ((List.prefix_append _ _).trans within)

theorem closed_sibling (clean : IsFileName name) (clean' : IsFileName other) (content : Content)
    (rest : Bytes) : Closed (stem base ++ name) (bytes (stem base ++ other) content ++ rest) := by
  right
  rintro ⟨more, within⟩
  rw [stem_child clean, bytes_eq, Digest.utf8_append, Digest.utf8_append, Digest.utf8_append,
    List.append_assoc, List.append_assoc, List.append_assoc, List.append_assoc,
    List.append_cancel_left_eq] at within
  have slash : "/".toUTF8.toList = [0x2F] := by
    rw [Digest.utf8_eq]
    rfl
  rw [slash, List.cons_append] at within
  have marks := (split_unique (not_separator_of_mem clean) (not_separator_of_mem clean')
    (.inr (.inl rfl)) (isSeparator_mark content) within).2.1
  exact mark_ne_slash content marks.symm

theorem closed_bytesOfAll {cs : Contents} (closed : Closed base rest) (clean : IsFileName name)
    (names : ∀ e ∈ cs, IsFileName e.1) :
    Closed (stem base ++ name) (bytesOfAll base cs ++ rest) := by
  cases cs with
  | nil => exact closed.child clean
  | cons e more =>
    rw [bytesOfAll_cons, List.append_assoc]
    exact closed_sibling clean (names e List.mem_cons_self) _ _

theorem not_closed_entry (content : Content) (rest : Bytes) :
    ¬ Closed base (bytes (stem base ++ name) content ++ rest) := by
  rw [bytes_eq]
  rintro (empty | elsewhere)
  · simp at empty
  · rw [Digest.utf8_append, List.append_assoc, List.append_assoc] at elsewhere
    exact elsewhere (List.prefix_append _ _)

/-- Whether an entry is told from any other by its mark and what is inside, whatever follows it. -/
def Told (content : Content) : Prop :=
  ∀ {other : Content} {path : String} {rest rest' : Bytes}, other.Sound →
    path ≠ "" → Closed path rest → Closed path rest' → content.mark = other.mark →
    inside path content ++ rest = inside path other ++ rest' → content = other ∧ rest = rest'

/-- Entries that are told from others are told in a row. -/
theorem bytesOfAll_told {cs ds : Contents} {rest rest' : Bytes}
    (names : ∀ e ∈ cs, IsFileName e.1) (told : ∀ e ∈ cs, Told e.2)
    (sound : (Content.folder ds).Sound) (closed : Closed base rest) (closed' : Closed base rest')
    (same : bytesOfAll base cs ++ rest = bytesOfAll base ds ++ rest') : cs = ds ∧ rest = rest' := by
  cases sound with | folder names' sounds =>
  induction cs generalizing ds with
  | nil =>
    cases ds with
    | nil => exact ⟨rfl, same⟩
    | cons e ds =>
      rw [bytesOfAll, List.nil_append, bytesOfAll_cons, List.append_assoc] at same
      exact absurd (same ▸ closed) (not_closed_entry _ _)
  | cons e cs ih =>
    cases ds with
    | nil =>
      rw [bytesOfAll_cons, List.append_assoc, bytesOfAll, List.nil_append] at same
      exact absurd (same.symm ▸ closed') (not_closed_entry _ _)
    | cons f ds =>
      obtain ⟨name, content⟩ := e
      obtain ⟨name', content'⟩ := f
      rw [List.forall_mem_cons] at names told names' sounds
      simp only [bytesOfAll_cons, bytes_eq, Digest.utf8_append, List.append_assoc, List.cons_append,
        List.append_cancel_left_eq] at same
      -- names end at the first separator, so the two streams agree on name and mark of the entry
      obtain ⟨sameName, sameMark, sameInside⟩ :=
        split_unique (not_separator_of_mem names.1) (not_separator_of_mem names'.1)
          (isSeparator_mark content) (isSeparator_mark content') same
      obtain rfl := Digest.utf8_inj sameName
      obtain ⟨rfl, sameRest⟩ := told.1 sounds.1 (stem_append_ne names.1)
        (closed_bytesOfAll closed names.1 names.2) (closed_bytesOfAll closed' names.1 names'.2)
        sameMark sameInside
      obtain ⟨rfl, sameEnd⟩ := ih names.2 told.2 sameRest names'.2 sounds.2
      exact ⟨rfl, sameEnd⟩

theorem Sound.told (sound : content.Sound) : Told content := by
  induction sound with
  | folder names _ ih =>
    intro other path rest rest' sound' _ closed closed' sameMark same
    cases other with
    | file => simp [mark] at sameMark
    | folder =>
      obtain ⟨rfl, sameRest⟩ := bytesOfAll_told names ih sound' closed closed' same
      exact ⟨rfl, sameRest⟩
  | @file bytes fits =>
    intro other path rest rest' sound' _ _ _ sameMark same
    cases sound' with
    | folder => simp [mark] at sameMark
    | @file bytes' fits' =>
      rw [inside, inside, List.append_assoc, List.append_assoc] at same
      obtain ⟨sameWidth, same⟩ := List.append_inj same
        (by rw [Digest.length_littleEndian, Digest.length_littleEndian])
      have sameLength := Digest.littleEndian_inj fits fits' sameWidth
      obtain ⟨rfl, sameRest⟩ := List.append_inj same sameLength
      exact ⟨rfl, sameRest⟩

end Content

/-- Contents with the same bytes are the same. -/
theorem Contents.bytes_inj {cs ds : Contents} (sound : (Content.folder cs).Sound)
    (sound' : (Content.folder ds).Sound) (same : cs.bytes = ds.bytes) : cs = ds := by
  cases sound with | folder names sounds =>
  have same' : Content.bytesOfAll "" cs ++ [] = Content.bytesOfAll "" ds ++ [] := by
    rw [List.append_nil, List.append_nil]
    exact same
  exact (Content.bytesOfAll_told names (fun e member => (sounds e member).told) sound'
    (.inl rfl) (.inl rfl) same').1

theorem keyBytes_inj {digest digest' : String} {depth depth' : Nat} (fits : depth < UInt64.size)
    (fits' : depth' < UInt64.size) (same : keyBytes digest depth = keyBytes digest' depth') :
    digest = digest' ∧ depth = depth' := by
  obtain ⟨front, -⟩ := List.append_inj' same rfl
  obtain ⟨texts, numbers⟩ := List.append_inj' front
    (by rw [Digest.length_littleEndian, Digest.length_littleEndian])
  exact ⟨Digest.utf8_inj texts, Digest.littleEndian_inj fits fits' numbers⟩

end ProductTemplates
