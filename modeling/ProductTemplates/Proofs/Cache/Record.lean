import ProductTemplates.Cache
import ProductTemplates.Proofs.Descriptor.Nesting
import ProductTemplates.Proofs.Descriptor.RoundTrip
import ProductTemplates.Proofs.Digest
import ProductTemplates.Proofs.Json.Nesting

/-! Records of a cache. What is read of the bytes of a record is the record with what its bundle is
read back as: the same bundle iff all that it carries along is simple. A record that is nested too
deep, or whose time is no timestamp, is not read at all. -/
namespace ProductTemplates.CacheRecord

open Document Node RecordField Value

variable {r r' : CacheRecord} {bytes : Bytes} {node : Node}

@[simp] theorem steady_readFormat : Steady readFormat := by
  intro room n format read
  cases n with
  | scalar | refused | malformed => exact read
  | sequence | mapping =>
    rw [within] at read
    split at read <;> contradiction

@[simp] theorem steady_readTime : Steady readTime := steady_bind steady_string _

theorem steady : Steady CacheRecord.read := steady_record (by simp [fields]) _

theorem readFormat_node {n : Nat} (fits : n < 2 ^ 32) :
    readFormat (Value.number (.integer n)).node = .ok n := by
  have small : 0 ≤ (n : Int) ∧ (n : Int) < Int.pow 2 32 := by
    have power : Int.pow 2 32 = 2 ^ 32 := rfl
    omega
  rw [Value.node, Json.numberAtom?_integer (by omega) (by omega)]
  simp only [readFormat, Json.atomNode, ofAtom]
  rw [if_pos small, Int.toNat_natCast]

theorem readTime_eq_ok_iff {text time : String} : readTime (Value.string text).node = .ok time ↔
    Timestamp.isTimestamp text = true ∧ time = text := by
  have step : readTime (Value.string text).node =
      if Timestamp.isTimestamp text then .ok text else .error .malformed := rfl
  rw [step]
  split
  · next proper => simp [proper, eq_comm]
  · next other => simp [other]

/-- Whatever is read of a record, only its bundle may be another. -/
theorem read_eq_ok_iff (fits : r.format < 2 ^ 32) : CacheRecord.read r.toValue.node = .ok r' ↔
    Timestamp.isTimestamp r.createdAt = true ∧
      ∃ b, Bundle.read r.bundle.toValue.node = .ok b ∧ r' = { r with bundle := b } := by
  have names : Known fields ["format", "key", "created_at", "bundle"] := by decide
  rw [CacheRecord.read, toValue, record_eq_ok_iff names (List.Sublist.refl _) (by decide)
    (by simp [fields, RecordField.of, needed])]
  constructor
  · intro h
    obtain ⟨format, number, h⟩ := h.read_first rfl rfl
    obtain ⟨key, text, h⟩ := h.read_first rfl rfl
    obtain ⟨createdAt, time, h⟩ := h.read_first rfl rfl
    obtain ⟨b, read, h⟩ := h.read_first rfl rfl
    obtain rfl := Puts.nil.eq h
    obtain rfl : format = r.format := Except.ok.inj (number.symm.trans (readFormat_node fits))
    obtain rfl : r.key = key := Except.ok.inj text
    obtain ⟨proper, rfl⟩ := readTime_eq_ok_iff.1 time
    exact ⟨proper, b, read, rfl⟩
  · rintro ⟨proper, b, read, rfl⟩
    have text : Node.string (Value.string r.key).node = .ok r.key := rfl
    have time := readTime_eq_ok_iff.2 ⟨proper, rfl⟩
    exact puts_first rfl rfl rfl (readFormat_node fits) (puts_first rfl rfl rfl text
      (puts_first rfl rfl rfl time (puts_first rfl rfl rfl read .nil)))

/-- The bytes of a record are read as its document, in which what is nested too deep is refused. -/
theorem ofBytes?_eq (written : r.toBytes? = some bytes) :
    ofBytes? bytes = (CacheRecord.read (r.toValue.node.within Json.maxNesting)).toOption := by
  unfold toBytes? at written
  split at written
  · next j json =>
    obtain rfl := Option.some.inj written
    rw [ofBytes?, Digest.fromUTF8?_utf8, Option.bind_eq_bind, Option.bind_some,
      Json.readText_compactText, node_of_toJson json, Source.read]
    cases CacheRecord.read (r.toValue.node.within Json.maxNesting) <;> rfl
  · contradiction

theorem read_of_ofBytes? (written : r.toBytes? = some bytes) (read : ofBytes? bytes = some r') :
    CacheRecord.read r.toValue.node = .ok r' := by
  rw [ofBytes?_eq written, toOption_eq_some_iff] at read
  exact steady _ _ _ read

/-- What is read of the bytes of a record has the same bundle iff JSON has a form for all that it
carries along. -/
theorem bundle_eq_iff (fits : r.format < 2 ^ 32)
    (parted : ∀ t ∈ r.bundle.parameterTemplates, t.IsParted) (written : r.toBytes? = some bytes)
    (read : ofBytes? bytes = some r') : r'.bundle = r.bundle ↔ r.bundle.Carries IsSimple := by
  obtain ⟨-, b, inner, rfl⟩ := (read_eq_ok_iff fits).1 (read_of_ofBytes? written read)
  rw [← Bundle.read_eq_ok_iff parted]
  constructor
  · intro same
    rwa [show b = r.bundle from same] at inner
  · exact fun back => Except.ok.inj (inner.symm.trans back)

theorem eq_of_ofBytes? (fits : r.format < 2 ^ 32) (simple : r.bundle.Carries IsSimple)
    (parted : ∀ t ∈ r.bundle.parameterTemplates, t.IsParted) (written : r.toBytes? = some bytes)
    (read : ofBytes? bytes = some r') : r' = r := by
  have same := (bundle_eq_iff fits parted written read).2 simple
  obtain ⟨-, b, -, rfl⟩ := (read_eq_ok_iff fits).1 (read_of_ofBytes? written read)
  rw [show b = r.bundle from same]

/-- A record with a time is read back if JSON has a form for all that it carries along, and this form
is not nested too deep. -/
theorem ofBytes?_of_shallow (fits : r.format < 2 ^ 32) (timed : Timestamp.isTimestamp r.createdAt = true)
    (simple : r.bundle.Carries IsSimple) (parted : ∀ t ∈ r.bundle.parameterTemplates, t.IsParted)
    (shallow : ∀ j, r.toValue.toJson = .ok j → j.nesting ≤ Json.maxNesting)
    (written : r.toBytes? = some bytes) : ofBytes? bytes = some r := by
  obtain ⟨j, json⟩ : ∃ j, r.toValue.toJson = .ok j := by
    unfold toBytes? at written
    split at written
    · next j json => exact ⟨j, json⟩
    · contradiction
  have whole : r.toValue.node.within Json.maxNesting = r.toValue.node := by
    rw [← node_of_toJson json, Json.within_node (shallow j json)]
  rw [ofBytes?_eq written, whole, toOption_eq_some_iff, read_eq_ok_iff fits]
  exact ⟨timed, _, (Bundle.read_eq_ok_iff parted).2 simple, rfl⟩

end ProductTemplates.CacheRecord
