import CallManual.Proofs.Fallible
import CallManual.Proofs.Json.Reading
import CallManual.Record.Basic
import Mathlib.Data.List.Nodup
import Mathlib.Data.List.Zip

/-!
# The spellings of a record

A record may be written with its members in any order and with members of other names between them,
or as the array of its values. However it is written, at every depth, a decoder that knows its
fields finds the same values.
-/
namespace CallManual.Record
open Json (Reading)

variable {α : Type} {a : α} {decode : Decoder α} {toJson : α → Json} {r : Reading}
  {schema : List Field} {written : List (Text × Json)} {seen : List (Text × Reading)}
  {members : List (Option Text × Reading)} {vs : List Reading} {s : Text} {b : Bool}

/-- The members that have one of the names. -/
def named (names : List Text) (members : List (Option Text × Reading)) : List (Text × Reading) :=
  members.filterMap fun m => m.1.bind fun k => if k ∈ names then some (k, m.2) else none

/-- The reading spells the value, whose objects are all records. -/
inductive Spells : Json → Reading → Prop
  | null : Spells .null .null
  | bool (b : Bool) : Spells (.bool b) (.bool b)
  | string (s : Text) : Spells (.string s) (.string (some s))
  | array {items : List Json} {vs : List Reading} (h : List.Forall₂ Spells items vs) :
    Spells (.array items) (.array vs true)
  | object {written : List (Text × Json)} {vs : List Reading}
    {members : List (Option Text × Reading)} (h : List.Forall₂ Spells (written.map Prod.snd) vs)
    (order : (named (written.map Prod.fst) members).Perm ((written.map Prod.fst).zip vs))
    (others : ∀ m ∈ members, ∃ k, m.1 = some k ∧ (k ∈ written.map Prod.fst ∨ m.2.isComplete)) :
    Spells (.object written) (.object members true)
  | listed {written : List (Text × Json)} {vs : List Reading}
    (h : List.Forall₂ Spells (written.map Prod.snd) vs) :
    Spells (.object written) (.array vs true)

theorem spells_bool_iff : Spells (.bool b) r ↔ r = .bool b :=
  ⟨fun h => by cases h; rfl, fun h => h ▸ .bool b⟩

theorem spells_string_iff : Spells (.string s) r ↔ r = .string (some s) :=
  ⟨fun h => by cases h; rfl, fun h => h ▸ .string s⟩

theorem named_cons_of_mem {names : List Text} {k : Text} (hk : k ∈ names) (r : Reading)
    (ms : List (Option Text × Reading)) :
    named names ((some k, r) :: ms) = (k, r) :: named names ms := by
  simp [named, hk]

theorem named_cons_of_notMem {names : List Text} {k : Text} (hk : k ∉ names) (r : Reading)
    (ms : List (Option Text × Reading)) :
    named names ((some k, r) :: ms) = named names ms := by
  simp [named, hk]

theorem find?_eq_none_of_notMem {k : Text} (hk : k ∉ schema.map Field.name) :
    schema.find? (fun f => f.name = k) = none := by
  simpa [List.find?_eq_none] using hk

theorem exists_find?_of_mem {k : Text} (hk : k ∈ schema.map Field.name) :
    ∃ f ∈ schema, f.name = k ∧ schema.find? (fun f => f.name = k) = some f := by
  obtain ⟨g, hg, hname⟩ := List.mem_map.mp hk
  have hsome : (schema.find? fun f => f.name = k).isSome := by
    rw [List.find?_isSome]
    exact ⟨g, hg, by simpa using hname⟩
  obtain ⟨f, hf⟩ := Option.isSome_iff_exists.mp hsome
  exact ⟨f, List.mem_of_find?_eq_some hf, by simpa using List.find?_some hf, hf⟩

/-- When the members with names of fields have different names and hold what their fields accept,
the scan passes over all other members. -/
theorem scanMembers_eq_ok
    (hmembers : ∀ m ∈ members, ∃ k, m.1 = some k ∧
      (k ∈ schema.map Field.name ∨ m.2.isComplete))
    (hcheck : ∀ f ∈ schema, ∀ v, (f.name, v) ∈ named (schema.map Field.name) members →
      f.check v = .ok ())
    (hnodup : (((named (schema.map Field.name) members).reverse ++ seen).map Prod.fst).Nodup) :
    scanMembers schema seen members =
      .ok ((named (schema.map Field.name) members).reverse ++ seen) := by
  induction members generalizing seen with
  | nil => rfl
  | cons m ms ih =>
    obtain ⟨hm, hms⟩ := List.forall_mem_cons.mp hmembers
    obtain ⟨k, v⟩ := m
    obtain ⟨k, rfl, hk⟩ := hm
    by_cases hname : k ∈ schema.map Field.name
    · rw [named_cons_of_mem hname] at hcheck hnodup ⊢
      rw [List.reverse_cons, List.append_assoc, List.singleton_append] at hnodup ⊢
      obtain ⟨f, hf, rfl, hfind⟩ := exists_find?_of_mem hname
      have hfresh : (seen.any fun m => m.1 = f.name) = false := by
        rw [List.map_append, List.map_cons] at hnodup
        have hnotMem := (List.nodup_cons.mp hnodup.of_append_right).1
        rw [List.any_eq_false]
        intro m hm
        simpa using fun he : m.1 = f.name => hnotMem (List.mem_map.mpr ⟨m, hm, he⟩)
      have hv := hcheck f hf v List.mem_cons_self
      simp only [scanMembers, hfind, hfresh, Bool.false_eq_true, if_false, hv]
      exact ih hms (fun g hg w hw => hcheck g hg w (List.mem_cons_of_mem _ hw)) hnodup
    · rw [named_cons_of_notMem hname] at hcheck hnodup ⊢
      have hv : v.isComplete = true := hk.resolve_left hname
      simp only [scanMembers, find?_eq_none_of_notMem hname, hv, if_true]
      exact ih hms hcheck hnodup

theorem checkItems_eq_ok_iff : checkItems schema vs = .ok () ↔
    List.Forall₂ (fun f v => f.check v = .ok ()) schema vs := by
  induction schema generalizing vs with
  | nil => cases vs <;> simp [checkItems]
  | cons f fs ih =>
    cases vs with
    | nil => simp [checkItems]
    | cons v vs =>
      rw [checkItems, bind_eq_ok_iff, List.forall₂_cons, ← ih]
      exact ⟨fun ⟨_, hv, hvs⟩ => ⟨hv, hvs⟩, fun ⟨hv, hvs⟩ => ⟨(), hv, hvs⟩⟩

theorem values_object (hnodup : (schema.map Field.name).Nodup)
    (hcheck : List.Forall₂ (fun f v => f.check v = .ok ()) schema vs)
    (order : (named (schema.map Field.name) members).Perm ((schema.map Field.name).zip vs))
    (others : ∀ m ∈ members, ∃ k, m.1 = some k ∧
      (k ∈ schema.map Field.name ∨ m.2.isComplete)) :
    values schema (.object members true) = .ok vs := by
  obtain ⟨hlength, hcheck⟩ := List.forall₂_iff_zip.mp hcheck
  have hzip : (schema.map Field.name).zip vs = (schema.zip vs).map (Prod.map Field.name id) :=
    List.zip_map_left ..
  have hfound : ((named (schema.map Field.name) members).map Prod.fst).Nodup := by
    rw [(order.map Prod.fst).nodup_iff, List.map_fst_zip (by simp [hlength])]
    exact hnodup
  have hscan : scanMembers schema [] members =
      .ok (named (schema.map Field.name) members).reverse := by
    rw [scanMembers_eq_ok others, List.append_nil]
    · intro f hf v hv
      rw [order.mem_iff, hzip, List.mem_map] at hv
      obtain ⟨⟨g, w⟩, hgw, heq⟩ := hv
      obtain ⟨hname, rfl⟩ := Prod.mk.inj heq
      obtain rfl := List.inj_on_of_nodup_map hnodup (List.of_mem_zip hgw).1 hf hname
      exact hcheck hgw
    · rw [List.append_nil, List.map_reverse]
      exact List.nodup_reverse.mpr hfound
  rw [values, hscan]
  refine mapM_eq_ok_iff.mpr (List.forall₂_iff_zip.mpr ⟨hlength, fun {f v} hfv => ?_⟩)
  have hmem : (f.name, v) ∈ (named (schema.map Field.name) members).reverse := by
    rw [List.mem_reverse, order.mem_iff, hzip]
    exact List.mem_map_of_mem hfv
  rw [lookup_eq_some_of_mem _ hmem]
  rw [List.map_reverse]
  exact List.nodup_reverse.mpr hfound

theorem values_array (hcheck : List.Forall₂ (fun f v => f.check v = .ok ()) schema vs) :
    values schema (.array vs true) = .ok vs := by
  rw [values, checkItems_eq_ok_iff.mpr hcheck]
  rfl

/-- Whatever way the value is spelled, the decoder gives this. -/
def Reads (decode : Decoder α) (j : Json) (a : α) : Prop := ∀ r, Spells j r → decode r = .ok a

/-- The field accepts the value in every spelling. -/
def Takes (f : Field) (w : Text × Json) : Prop :=
  f.name = w.1 ∧ ∀ r, Spells w.2 r → f.check r = .ok ()

theorem Reads.takes {j : Json} (h : Reads decode j a) (name : Text) :
    Takes (field name decode) (name, j) :=
  ⟨rfl, fun r hr => by simp [field, h r hr, Except.map]⟩

theorem names_of_takes (h : List.Forall₂ Takes schema written) :
    written.map Prod.fst = schema.map Field.name := by
  induction h with
  | nil => rfl
  | cons hf _ ih => rw [List.map_cons, List.map_cons, ih, hf.1]

theorem checks_of_takes (h : List.Forall₂ Takes schema written)
    (hvs : List.Forall₂ Spells (written.map Prod.snd) vs) :
    List.Forall₂ (fun f v => f.check v = .ok ()) schema vs := by
  induction h generalizing vs with
  | nil =>
    cases hvs
    exact .nil
  | cons hf _ ih =>
    rcases hvs with _ | ⟨hv, hvs⟩
    exact .cons (hf.2 _ hv) (ih hvs)

/-- A record is read when its fields take the values written and it is built from any spelling of
these. -/
theorem reads_record {build : List Reading → Except RecordError α}
    (hnodup : (schema.map Field.name).Nodup) (hfields : List.Forall₂ Takes schema written)
    (hbuild : ∀ vs, List.Forall₂ Spells (written.map Prod.snd) vs → build vs = .ok a) :
    Reads (fun r => values schema r >>= build) (.object written) a := by
  intro r hr
  cases hr with
  | object h order others =>
    rw [names_of_takes hfields] at order others
    exact (bind_of_eq_ok (values_object hnodup (checks_of_takes hfields h) order others) build).trans
      (hbuild _ h)
  | listed h =>
    exact (bind_of_eq_ok (values_array (checks_of_takes hfields h)) build).trans (hbuild _ h)

theorem reads_boolean (b : Bool) : Reads boolean (.bool b) b := by
  intro r hr
  rw [spells_bool_iff.mp hr]
  rfl

theorem reads_text (s : Text) : Reads text (.string s) s := by
  intro r hr
  rw [spells_string_iff.mp hr]
  rfl

theorem text_eq_ok_iff : text r = .ok s ↔ r = .string (some s) := by
  unfold text
  split
  case h_1 => simp
  case h_2 hno => simpa using hno s

theorem elements_eq_ok_iff {as : List α} : elements decode r = .ok as ↔
    ∃ vs, r = .array vs true ∧ List.Forall₂ (fun v a => decode v = .ok a) vs as := by
  refine ⟨fun h => ?_, fun ⟨vs, hr, h⟩ => ?_⟩
  · unfold elements at h
    split at h
    case h_1 vs closed =>
      obtain ⟨bs, hbs, hlast⟩ := bind_eq_ok_iff.mp h
      split_ifs at hlast with hclosed
      cases hlast
      exact ⟨vs, hclosed ▸ rfl, mapM_eq_ok_iff.mp hbs⟩
    case h_2 => cases h
  · rw [hr, elements, bind_of_eq_ok (mapM_eq_ok_iff.mpr h), if_pos rfl]

theorem reads_elements (h : ∀ a, Reads decode (toJson a) a) (as : List α) :
    Reads (elements decode) (.array (as.map toJson)) as := by
  intro r hr
  cases hr with
  | array hitems =>
    refine elements_eq_ok_iff.mpr ⟨_, rfl, ?_⟩
    exact (List.forall₂_map_left_iff.mp hitems).flip.imp fun v a hv => h a v hv

theorem reads_nullable_none : Reads (nullable decode) .null none := by
  intro r hr
  cases hr
  rfl

theorem reads_nullable_some (h : Reads decode (.object written) a) :
    Reads (nullable decode) (.object written) (some a) := by
  intro r hr
  have hne : nullable decode r = (decode r).map some := by cases hr <;> rfl
  rw [hne, h r hr]
  rfl

/-! ## The written spelling -/

theorem named_ofMembers {names : List Text} {ms : List (Text × Json)}
    (h : ∀ m ∈ ms, m.1 ∈ names) : named names (Reading.ofMembers ms) =
      (ms.map Prod.fst).zip ((Reading.ofMembers ms).map Prod.snd) := by
  induction ms with
  | nil => rfl
  | cons m ms ih =>
    obtain ⟨hm, hms⟩ := List.forall_mem_cons.mp h
    rw [Reading.ofMembers, named_cons_of_mem hm, ih hms]
    rfl

theorem exists_of_mem_ofMembers {ms : List (Text × Json)} {m : Option Text × Reading}
    (h : m ∈ Reading.ofMembers ms) : ∃ k ∈ ms.map Prod.fst, m.1 = some k := by
  induction ms with
  | nil => cases h
  | cons w ms ih =>
    rcases List.mem_cons.mp h with rfl | h
    · exact ⟨w.1, List.mem_cons_self, rfl⟩
    · obtain ⟨k, hk, hm⟩ := ih h
      exact ⟨k, List.mem_cons_of_mem _ hk, hm⟩

mutual

/-- A value is spelled by what it is written as. -/
theorem spells_ofJson : ∀ j : Json, Spells j (Reading.ofJson j)
  | .null => .null
  | .bool b => .bool b
  | .string s => .string s
  | .array items => .array (spells_ofItems items)
  | .object ms => .object (spells_ofMembers ms)
      (.of_eq (named_ofMembers fun _ hm => List.mem_map_of_mem hm))
      fun _ hm => by
        obtain ⟨k, hk, hname⟩ := exists_of_mem_ofMembers hm
        exact ⟨k, hname, Or.inl hk⟩

theorem spells_ofItems : ∀ items : List Json, List.Forall₂ Spells items (Reading.ofItems items)
  | [] => .nil
  | j :: js => .cons (spells_ofJson j) (spells_ofItems js)

theorem spells_ofMembers : ∀ ms : List (Text × Json),
    List.Forall₂ Spells (ms.map Prod.snd) ((Reading.ofMembers ms).map Prod.snd)
  | [] => .nil
  | (_, j) :: ms => .cons (spells_ofJson j) (spells_ofMembers ms)

end

/-- Values that have one spelling are spelled as they are written. -/
theorem eq_map_ofJson {js : List Json} (h : List.Forall₂ Spells js vs)
    (hone : ∀ j ∈ js, ∀ v, Spells j v → v = Reading.ofJson j) : vs = js.map Reading.ofJson := by
  induction h with
  | nil => rfl
  | cons hv _ ih =>
    rw [List.forall_mem_cons] at hone
    rw [List.map_cons, ← ih hone.2, hone.1 _ hv]

end CallManual.Record
