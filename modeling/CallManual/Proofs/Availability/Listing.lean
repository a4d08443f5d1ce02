import CallManual.Availability.Symbols
import CallManual.Proofs.Text.Identifier

/-!
# The lines of a listing

A line that defines a function symbol is an address, a type letter and a name with white space
between them, where the address may be left out and a version may follow the name. The parts of such
a line overlap in what they may hold, but its name can be told from the text of the line. Reading a
listing gives the names of these lines and passes over all others.
-/
namespace CallManual.Symbols
open Text

variable {n t line : Text}

/-- Nothing, or a version behind its mark. -/
def IsVersion (v : Text) : Prop := v = [] ∨ ∃ rest, v = '@' :: rest

instance : DecidablePred IsVersion
  | [] => isTrue (Or.inl rfl)
  | c :: rest => decidable_of_iff (c = '@') (by simp [IsVersion])

/-- The parts of a line that defines a function symbol. -/
structure Line where
  indent : Text
  address : Text
  gap : Text
  kind : Char
  space : Text
  name : Text
  version : Text
  indent_blank : AllBlank indent := by decide
  address_hex : ∀ c ∈ address, isHexDigit c = true := by decide
  gap_blank : AllBlank gap := by decide
  gap_ne_nil : gap ≠ [] := by decide
  kind_mem : kind ∈ ['T', 't', 'W', 'w', 'i'] := by decide
  space_blank : AllBlank space := by decide
  space_ne_nil : space ≠ [] := by decide
  isName : IsName name := by decide
  isVersion : IsVersion version := by decide

def Line.text (l : Line) : Text :=
  l.indent ++ (l.address ++ (l.gap ++ l.kind :: (l.space ++ (l.name ++ l.version))))

theorem takeWhile_append_version {v : Text} (hn : ∀ c ∈ n, inIdentifier c = true)
    (hv : IsVersion v) : (n ++ v).takeWhile inIdentifier = n := by
  rw [List.takeWhile_append_of_pos hn]
  rcases hv with rfl | ⟨rest, rfl⟩
  · simp
  · rw [List.takeWhile_cons_of_neg (by decide), List.append_nil]

theorem dropWhile_append_version {v : Text} (hn : ∀ c ∈ n, inIdentifier c = true)
    (hv : IsVersion v) : (n ++ v).dropWhile inIdentifier = v := by
  rw [List.dropWhile_append_of_pos hn]
  rcases hv with rfl | ⟨rest, rfl⟩
  · rfl
  · rw [List.dropWhile_cons_of_neg (by decide)]

theorem versionedName?_eq_some_iff : versionedName? t = some n ↔
    IsName n ∧ ∃ v, IsVersion v ∧ t = n ++ v := by
  rw [← isIdentifier_iff_isName]
  constructor
  · intro h
    have ht := List.takeWhile_append_dropWhile (p := inIdentifier) (l := t)
    unfold versionedName? at h
    split at h
    · next hrest =>
      simp only [Option.ite_none_right_eq_some, Option.some.injEq] at h
      obtain ⟨hname, rfl⟩ := h
      exact ⟨hname, [], Or.inl rfl, by rw [hrest] at ht; exact ht.symm⟩
    · next c rest hrest =>
      simp only [Option.ite_none_right_eq_some, Option.some.injEq, Bool.and_eq_true,
        decide_eq_true_eq] at h
      obtain ⟨⟨rfl, hname⟩, rfl⟩ := h
      exact ⟨hname, '@' :: rest, Or.inr ⟨rest, rfl⟩, by rw [hrest] at ht; exact ht.symm⟩
  · rintro ⟨hname, v, hv, rfl⟩
    have hin := inIdentifier_of_isIdentifier hname
    simp only [versionedName?, takeWhile_append_version hin hv, dropWhile_append_version hin hv]
    rcases hv with rfl | ⟨rest, rfl⟩ <;> simp [hname]

/-- What a line says behind its address: a type letter and, after a gap, the name. -/
def typedName? : Text → Option Text
  | kind :: c :: rest =>
    if isFunctionType kind && isBlank c then versionedName? (trimStart rest) else none
  | _ => none

theorem ofListingLine?_eq (line : Text) : ofListingLine? line =
    let address := (trimStart line).takeWhile isHexDigit
    let afterAddress := (trimStart line).dropWhile isHexDigit
    if startsBlank (if address.isEmpty then line else afterAddress) then
      typedName? (trimStart afterAddress)
    else none := by
  rfl

theorem isFunctionType_iff {c : Char} :
    isFunctionType c = true ↔ c ∈ ['T', 't', 'W', 'w', 'i'] := by
  simp [isFunctionType, or_assoc]

theorem typedName?_eq_some_iff : typedName? t = some n ↔
    ∃ kind space v, kind ∈ ['T', 't', 'W', 'w', 'i'] ∧ AllBlank space ∧ space ≠ [] ∧
      IsName n ∧ IsVersion v ∧ t = kind :: (space ++ (n ++ v)) := by
  constructor
  · intro h
    unfold typedName? at h
    split at h
    · next kind c rest =>
      simp only [Option.ite_none_right_eq_some, Bool.and_eq_true, versionedName?_eq_some_iff] at h
      obtain ⟨⟨hkind, hc⟩, hname, v, hv, hrest⟩ := h
      obtain ⟨gap, hgap, hne, hsplit⟩ := exists_gap (show startsBlank (c :: rest) = true from hc)
      rw [trimStart, List.dropWhile_cons_of_pos hc, ← trimStart, hrest] at hsplit
      exact ⟨kind, gap, v, isFunctionType_iff.mp hkind, hgap, hne, hname, hv, by rw [hsplit]⟩
    · cases h
  · rintro ⟨kind, space, v, hkind, hspace, hne, hname, hv, rfl⟩
    obtain ⟨c, space, rfl⟩ := List.exists_cons_of_ne_nil hne
    obtain ⟨hc, hspace⟩ := List.forall_mem_cons.mp hspace
    rw [List.cons_append, typedName?, isFunctionType_iff.mpr hkind, hc]
    apply versionedName?_eq_some_iff.mpr
    refine ⟨hname, v, hv, ?_⟩
    obtain ⟨d, rest, rfl, hd⟩ := hname.exists_cons
    exact trimStart_gap hspace (isBlank_of_inIdentifier hd) (rest ++ v)

/-- White space ends an address. -/
theorem cut_address {address : Text} (haddress : ∀ c ∈ address, isHexDigit c = true)
    (ht : startsBlank t = true) :
    (address ++ t).takeWhile isHexDigit = address ∧ (address ++ t).dropWhile isHexDigit = t := by
  rw [List.takeWhile_append_of_pos haddress, List.dropWhile_append_of_pos haddress]
  cases t with
  | nil => cases ht
  | cons c t => simp [isHexDigit_of_isBlank ht]

theorem kind_plain : ∀ c ∈ ['T', 't', 'W', 'w', 'i'], isBlank c = false ∧ isHexDigit c = false := by
  decide

/-- A line with these parts gives its name. -/
theorem ofListingLine?_text (l : Line) : ofListingLine? l.text = some l.name := by
  obtain ⟨hblank, hhex⟩ := kind_plain l.kind l.kind_mem
  have htyped : typedName? (l.kind :: (l.space ++ (l.name ++ l.version))) = some l.name :=
    typedName?_eq_some_iff.mpr ⟨l.kind, l.space, l.version, l.kind_mem, l.space_blank,
      l.space_ne_nil, l.isName, l.isVersion, rfl⟩
  have hgap := trimStart_gap l.gap_blank hblank (l.space ++ (l.name ++ l.version))
  rw [ofListingLine?_eq]
  by_cases haddress : l.address = []
  · -- without an address, the two stretches of white space are one
    have hindent : AllBlank (l.indent ++ l.gap) := fun c hc =>
      (List.mem_append.mp hc).elim (l.indent_blank c) (l.gap_blank c)
    have htext : l.text = l.indent ++ l.gap ++ l.kind :: (l.space ++ (l.name ++ l.version)) := by
      simp [Line.text, haddress]
    have hstart := startsBlank_append hindent (by simp [l.gap_ne_nil])
      (l.kind :: (l.space ++ (l.name ++ l.version)))
    simp only [htext, trimStart_gap hindent hblank, List.takeWhile_cons, List.dropWhile_cons, hhex,
      Bool.false_eq_true, if_false, List.isEmpty_nil, if_true, hstart]
    rw [trimStart_eq_self (by simpa using hblank), htyped]
  · have hstart := startsBlank_append l.gap_blank l.gap_ne_nil
      (l.kind :: (l.space ++ (l.name ++ l.version)))
    obtain ⟨hdigits, hrest⟩ := cut_address l.address_hex hstart
    obtain ⟨a, as, hcons⟩ := List.exists_cons_of_ne_nil haddress
    have ha : isBlank a = false :=
      isBlank_of_inIdentifier (inIdentifier_of_isHexDigit (l.address_hex a (by simp [hcons])))
    have htrim : trimStart l.text =
        l.address ++ (l.gap ++ l.kind :: (l.space ++ (l.name ++ l.version))) := by
      rw [Line.text, hcons]
      exact trimStart_gap l.indent_blank ha _
    simp only [htrim, hdigits, hrest, List.isEmpty_iff, haddress, if_false, hstart, if_true, hgap,
      htyped]

/-- A name comes from a line with these parts. -/
theorem exists_line_of_ofListingLine? (h : ofListingLine? line = some n) :
    ∃ l : Line, l.text = line ∧ l.name = n := by
  obtain ⟨indent, hindent, hline⟩ := exists_trimStart line
  have hsplit := List.takeWhile_append_dropWhile (p := isHexDigit) (l := trimStart line)
  have hhex : ∀ c ∈ (trimStart line).takeWhile isHexDigit, isHexDigit c = true :=
    fun _ hc => List.mem_takeWhile_imp hc
  rw [ofListingLine?_eq] at h
  simp only [Option.ite_none_right_eq_some, typedName?_eq_some_iff] at h
  obtain ⟨hstart, kind, space, v, hkind, hspace, hspace', hname, hv, hrest⟩ := h
  by_cases haddress : (trimStart line).takeWhile isHexDigit = []
  · rw [haddress, List.isEmpty_nil, if_pos rfl] at hstart
    obtain ⟨gap, hgap, hgap', hline⟩ := exists_gap hstart
    rw [haddress, List.nil_append] at hsplit
    rw [hsplit, trimStart_eq_self (head?_trimStart line)] at hrest
    refine ⟨⟨[], [], gap, kind, space, n, v, by simp [AllBlank], by simp, hgap, hgap', hkind,
      hspace, hspace', hname, hv⟩, ?_, rfl⟩
    rw [hline, hrest]
    rfl
  · rw [if_neg (by simpa using haddress)] at hstart
    obtain ⟨gap, hgap, hgap', hafter⟩ := exists_gap hstart
    refine ⟨⟨indent, _, gap, kind, space, n, v, hindent, hhex, hgap, hgap', hkind, hspace,
      hspace', hname, hv⟩, ?_, rfl⟩
    rw [Line.text, ← hrest, ← hafter, hsplit, ← hline]

/-- The names that lines define, in the order of the lines and with repeats. -/
inductive Defined : List Text → List Text → Prop
  | nil : Defined [] []
  | line (l : Line) {lines names : List Text} (rest : Defined lines names) :
      Defined (l.text :: lines) (l.name :: names)
  | other {t : Text} {lines names : List Text} (unlike : ∀ l : Line, l.text ≠ t)
      (rest : Defined lines names) : Defined (t :: lines) names

theorem filterMap_eq_iff_defined {lines names : List Text} :
    lines.filterMap ofListingLine? = names ↔ Defined lines names := by
  constructor
  · rintro rfl
    induction lines with
    | nil => exact .nil
    | cons t lines ih =>
      cases ht : ofListingLine? t with
      | none =>
        rw [List.filterMap_cons_none ht]
        refine .other (fun l hl => ?_) ih
        rw [← hl, ofListingLine?_text] at ht
        cases ht
      | some n =>
        rw [List.filterMap_cons_some ht]
        obtain ⟨l, rfl, rfl⟩ := exists_line_of_ofListingLine? ht
        exact .line l ih
  · intro h
    induction h with
    | nil => rfl
    | line l _ ih => rw [List.filterMap_cons_some (ofListingLine?_text l), ih]
    | @other t _ _ unlike _ ih =>
      cases ht : ofListingLine? t with
      | none => rw [List.filterMap_cons_none ht, ih]
      | some n =>
        obtain ⟨l, hl, -⟩ := exists_line_of_ofListingLine? ht
        exact absurd hl (unlike l)

theorem Line.name_eq_of_text_eq {l l' : Line} (h : l.text = l'.text) : l.name = l'.name := by
  have hname := ofListingLine?_text l
  rw [h, ofListingLine?_text l'] at hname
  exact (Option.some.inj hname).symm

/-- Reading a listing gives the names that its lines define, and all of them are identifiers. A line
that can be taken apart in several ways has the same name in all of them. -/
theorem ofListing_eq_iff_defined (listing : Text) :
    (∀ names, ofListing listing = names ↔ Defined (lines listing) names) ∧
    (∀ l l' : Line, l.text = l'.text → l.name = l'.name) ∧
    ∀ n ∈ ofListing listing, isIdentifier n = true := by
  refine ⟨fun names => filterMap_eq_iff_defined, fun l l' => Line.name_eq_of_text_eq, ?_⟩
  intro n hn
  obtain ⟨t, -, ht⟩ := List.mem_filterMap.mp hn
  obtain ⟨l, -, rfl⟩ := exists_line_of_ofListingLine? ht
  exact isIdentifier_iff_isName.mpr l.isName

/-- Without an address it is open where the indent ends, and a version may look like a line of its
own. Lines without a name, of another type and with other text in front define nothing. -/
theorem ofListing_of_bare_lines :
    let listing : Text := "0fA T open@@V2\n \tW _exit@V T 1\n U close\n T \nx T y\n\tt open"
    let l : Line := {
      indent := " ", address := "", gap := "\t", kind := 'W', space := " ", name := "_exit",
      version := "@V T 1" }
    let l' : Line := {
      indent := "", address := "", gap := " \t", kind := 'W', space := " ", name := "_exit",
      version := "@V T 1" }
    Defined (lines listing) ["open", "_exit", "open"] ∧ (l.text = l'.text ∧ l.name = l'.name) ∧
      (['o', 'p', 'e', 'n'] ∈ ofListing listing ∧ isIdentifier "open" = true) := by
  intro listing l l'
  obtain ⟨hdefined, hunique, hidentifier⟩ := ofListing_eq_iff_defined listing
  have hnames : ofListing listing = (["open", "_exit", "open"] : List Text) := by decide
  have hmem : ['o', 'p', 'e', 'n'] ∈ ofListing listing := by simp [hnames]
  exact ⟨(hdefined _).mp hnames, ⟨rfl, hunique l l' rfl⟩, hmem, hidentifier _ hmem⟩

end CallManual.Symbols
