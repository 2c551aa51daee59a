/-
The path of a request taken apart again. Behind its first slash the slashes
separate one segment for each component, and a segment stands for the name that
it was made from: so a path tells which components it was made of
(`documentPath_decodes`).

Which components these are says a table (`Addresses`), and what a segment is made
of is told character by character (`IsEscaped`).
-/
import ClusterOutput.Proofs.Text.Pieces
import ClusterOutput.Proofs.Url.Segments

namespace ClusterOutput.Url

/-- The table of components: what an index, a type and an id address, by which of them are empty. -/
inductive Addresses : (index docType id : String) → List String → Prop
  | document {index docType id : String} (htype : docType ≠ "") (hid : id ≠ "") :
    Addresses index docType id [index, docType, id]
  | docType {index docType : String} (htype : docType ≠ "") :
    Addresses index docType "" [index, docType]
  | untyped {index id : String} (hindex : index ≠ "") (hid : id ≠ "") :
    Addresses index "" id [index, id]
  | alone {id : String} (hid : id ≠ "") : Addresses "" "" id [id]
  | index {index : String} : Addresses index "" "" [index]

/-- The components are those of the table. -/
theorem addresses_iff {index docType id : String} {names : List String} :
    Addresses index docType id names ↔ names = components index docType id := by
  constructor
  · intro h
    cases h <;> simp_all [components]
  · rintro rfl
    by_cases htype : docType = ""
    · subst htype
      by_cases hid : id = ""
      · subst hid
        exact .index
      · by_cases hindex : index = ""
        · subst hindex
          simpa [components, hid] using Addresses.alone hid
        · simpa [components, hid, hindex] using Addresses.untyped hindex hid
    · by_cases hid : id = ""
      · subst hid
        simpa [components, htype] using Addresses.docType htype
      · simpa [components, htype, hid] using Addresses.document htype hid

/-! ## The characters of a segment -/

/-- The character is encoded in a segment: a control, or one with a meaning in a URL. -/
def isEncoded (c : Char) : Bool :=
  c.toNat < 0x20 || c.toNat == 0x7f || segmentEscapes.toList.contains c

/-- A hexadecimal digit, upper case. -/
def isUpperHex (c : Char) : Bool := isAsciiDigit c || (0x41 ≤ c.toNat && c.toNat ≤ 0x46)

/-- Text of ASCII characters in which those that a segment encodes stand only as `%` and two
digits. -/
inductive IsEscaped : List Char → Prop
  | nil : IsEscaped []
  | kept {c : Char} {cs : List Char} (hascii : c.toNat < 0x80) (hkept : isEncoded c = false)
    (hrest : IsEscaped cs) : IsEscaped (c :: cs)
  | escape {high low : Char} {cs : List Char} (hhigh : isUpperHex high = true)
    (hlow : isUpperHex low = true) (hrest : IsEscaped cs) : IsEscaped ('%' :: high :: low :: cs)

theorem isUpperHex_upperHex : ∀ n < 16, isUpperHex (upperHex n) = true := by decide

theorem IsEscaped.byte {cs : List Char} (h : IsEscaped cs) (b : UInt8) :
    IsEscaped (byteChars (inChars segmentEscapes) b ++ cs) := by
  have hb := b.toNat_lt
  have hkept : ∀ b : UInt8, (isControlByte b || inChars segmentEscapes b) = false →
      (Char.ofNat b.toNat).toNat < 0x80 ∧ isEncoded (Char.ofNat b.toNat) = false :=
    forall_byte (by decide +kernel)
  unfold byteChars
  split
  next => exact .escape (isUpperHex_upperHex _ (by omega)) (isUpperHex_upperHex _ (by omega)) h
  next hplain =>
    obtain ⟨hascii, hchar⟩ := hkept b (Bool.not_eq_true _ ▸ hplain)
    exact .kept hascii hchar h

theorem encodeSegment_isEscaped (name : String) : IsEscaped (encodeSegment name) := by
  unfold encodeSegment encodeText
  induction Utf8.encodeChars name.toList with
  | nil => exact .nil
  | cons b bytes ih => exact ih.byte b

theorem slash_not_mem_encodeSegment (name : String) : '/' ∉ encodeSegment name := fun h =>
  absurd (encodeSegment_chars name '/' h) (by decide)

/-! ## Names again -/

/-- The name that a segment stands for, if it is text. -/
def nameOf? (seg : List Char) : Option String := Utf8.decode? (decodeText seg)

theorem nameOf?_encodeSegment (name : String) : nameOf? (encodeSegment name) = some name := by
  rw [nameOf?, decodeText_encodeSegment, Utf8.decode?_encode]

theorem encodeSegment_injective : Function.Injective encodeSegment := by
  intro name name' h
  have hname := nameOf?_encodeSegment name
  rw [h, nameOf?_encodeSegment] at hname
  exact (Option.some.inj hname).symm

/-- The names that the segments of a path stand for: those between the slashes behind its first. -/
def namesOf? (path : String) : Option (List String) :=
  match path.toList with
  | '/' :: cs => (Text.pieces '/' cs).mapM nameOf?
  | _ => none

theorem documentPath_pieces (index docType id : String) :
    ∃ cs, (documentPath index docType id).toList = '/' :: cs ∧
      Text.pieces '/' cs = (components index docType id).map encodeSegment := by
  have hslash : ∀ seg ∈ (components index docType id).map encodeSegment, '/' ∉ seg := by
    rw [List.forall_mem_map]
    exact fun name _ => slash_not_mem_encodeSegment name
  obtain ⟨name, names, hnames⟩ := List.exists_cons_of_ne_nil (components_ne_nil index docType id)
  rw [hnames] at hslash ⊢
  refine ⟨_, ?_, Text.pieces_joined hslash⟩
  rw [documentPath, hnames, String.toList_ofList, List.flatMap_map]
  rfl

theorem mapM_nameOf? (names : List String) : (names.map encodeSegment).mapM nameOf? = some names := by
  induction names with
  | nil => rfl
  | cons name names ih => simp [nameOf?_encodeSegment, ih]

theorem namesOf?_documentPath (index docType id : String) :
    namesOf? (documentPath index docType id) = some (components index docType id) := by
  obtain ⟨cs, hpath, hpieces⟩ := documentPath_pieces index docType id
  rw [namesOf?, hpath]
  simp only [hpieces]
  exact mapM_nameOf? _

/-- **A path tells its components.** Whatever index, type and id: the parts of the path behind its
first slash, which slashes separate, stand for just the components that the table gives, in order,
and are ASCII with an escape for each byte that a segment encodes. So two paths are the same if and
only if their components are, and different names make different segments. -/
theorem documentPath_decodes (index docType id : String) :
    (∃ names, Addresses index docType id names ∧
      namesOf? (documentPath index docType id) = some names ∧
      ∀ index' docType' id' names', Addresses index' docType' id' names' →
        (documentPath index docType id = documentPath index' docType' id' ↔ names = names')) ∧
    (∃ cs, (documentPath index docType id).toList = '/' :: cs ∧
      ∀ part ∈ Text.pieces '/' cs, IsEscaped part) ∧
    (∀ name, nameOf? (encodeSegment name) = some name) ∧ Function.Injective encodeSegment := by
  refine ⟨⟨components index docType id, addresses_iff.mpr rfl,
    namesOf?_documentPath index docType id, fun index' docType' id' names' h => ?_⟩, ?_,
    nameOf?_encodeSegment, encodeSegment_injective⟩
  · obtain rfl := addresses_iff.mp h
    constructor
    · intro hpath
      have hnames := namesOf?_documentPath index docType id
      rw [hpath, namesOf?_documentPath] at hnames
      exact (Option.some.inj hnames).symm
    · intro hnames
      rw [documentPath, documentPath, hnames]
  · obtain ⟨cs, hpath, hpieces⟩ := documentPath_pieces index docType id
    refine ⟨cs, hpath, ?_⟩
    rw [hpieces, List.forall_mem_map]
    exact fun name _ => encodeSegment_isEscaped name

end ClusterOutput.Url
