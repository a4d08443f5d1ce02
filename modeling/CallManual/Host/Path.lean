import CallManual.Text.Basic

/-!
# Paths

Paths are text with `/` between their components. Joining and climbing look at the text alone: empty
components and dots are passed over at the end, and two dots are a component like any other.
-/
namespace CallManual

abbrev Path := Text

namespace Path

/-- The part of a path that no component belongs to: the root, or a dot in front of all others. -/
def anchor : Path → Text
  | '/' :: _ => ['/']
  | ['.'] => ['.']
  | '.' :: '/' :: _ => ['.']
  | _ => []

def isSkipped (component : Text) : Bool := component.isEmpty || component == ['.']

/-- Components without those at the end that are passed over. -/
def dropSkipped : List Text → List Text
  | [] => []
  | c :: cs =>
    match dropSkipped cs with
    | [] => if isSkipped c then [] else [c]
    | ds => c :: ds

/-- The components after the anchor, up to the last one that counts. -/
def components (p : Path) : List Text :=
  dropSkipped ((p.drop (anchor p).length).splitOn '/')

/-- The path without its last component. The root and the empty path have no parent. -/
def parent? (p : Path) : Option Path :=
  match components p with
  | [] => if anchor p = ['.'] then some [] else none
  | c :: cs =>
    some (anchor p ++ Text.join ['/'] (dropSkipped (c :: cs).dropLast))

/-- The last component, unless it is two dots. -/
def fileName? (p : Path) : Option Text :=
  match (components p).getLast? with
  | none => none
  | some c => if c = ['.', '.'] then none else some c

/-- A path as seen from a directory. -/
def join (directory p : Path) : Path :=
  match p with
  | '/' :: _ => p
  | _ => if directory.isEmpty || directory.getLast? = some '/' then directory ++ p
    else directory ++ '/' :: p

theorem dropSkipped_isPrefix (cs : List Text) : dropSkipped cs <+: cs := by
  induction cs with
  | nil => simp [dropSkipped]
  | cons c cs ih =>
    unfold dropSkipped
    split
    · split
      · simp
      · exact List.cons_prefix_cons.2 ⟨rfl, List.nil_prefix⟩
    · exact List.cons_prefix_cons.2 ⟨rfl, ih⟩

theorem dropSkipped_getLast {cs : List Text} {c : Text} (h : (dropSkipped cs).getLast? = some c) :
    c ≠ [] := by
  induction cs with
  | nil => simp [dropSkipped] at h
  | cons d cs ih =>
    unfold dropSkipped at h
    split at h
    · split at h <;> simp at h
      grind [isSkipped]
    · next hne => grind

theorem join_cons_length (c : Text) (cs : List Text) :
    c.length + (Text.join ['/'] cs).length ≤ (Text.join ['/'] (c :: cs)).length := by
  cases cs <;> simp [Text.join, List.intercalate_cons_cons]

theorem join_isPrefix_length {cs ds : List Text} (h : cs <+: ds) :
    (Text.join ['/'] cs).length ≤ (Text.join ['/'] ds).length := by
  induction cs generalizing ds with
  | nil => simp [Text.join]
  | cons c cs ih =>
    obtain ⟨es, rfl⟩ := h
    cases cs with
    | nil =>
      have := join_cons_length c es
      simp [Text.join] at this ⊢
      omega
    | cons c' cs =>
      have := @ih (c' :: cs ++ es) (by simp)
      simp [Text.join, List.intercalate_cons_cons] at this ⊢
      omega

theorem join_concat_length (cs : List Text) (c : Text) :
    (Text.join ['/'] cs).length + c.length ≤ (Text.join ['/'] (cs ++ [c])).length := by
  induction cs with
  | nil => simp [Text.join]
  | cons d cs ih =>
    cases cs with
    | nil => simp [Text.join, List.intercalate_cons_cons]
    | cons e cs =>
      simp [Text.join, List.intercalate_cons_cons] at ih ⊢
      omega

theorem anchor_isPrefix (p : Path) : anchor p <+: p := by
  unfold anchor
  split <;> simp

/-- Climbing comes to an end. -/
theorem parent?_length {p q : Path} (h : parent? p = some q) : q.length < p.length := by
  have hp : p.length = (anchor p).length + (p.drop (anchor p).length).length := by
    have := (anchor_isPrefix p).length_le
    simp
    omega
  have hb : (Text.join ['/'] (components p)).length ≤ (p.drop (anchor p).length).length := by
    have := join_isPrefix_length (dropSkipped_isPrefix ((p.drop (anchor p).length).splitOn '/'))
    simpa only [components, Text.join, List.intercalate_splitOn] using this
  unfold parent? at h
  split at h
  · next hc =>
    split at h
    · next ha =>
      simp at h
      subst h
      rw [ha] at hp
      simp at hp ⊢
      omega
    · simp at h
  · next c cs hc =>
    have hne : components p ≠ [] := by simp [hc]
    have hlast := dropSkipped_getLast (List.getLast?_eq_some_getLast hne)
    have hsplit := List.dropLast_concat_getLast hne
    have h1 := join_concat_length (components p).dropLast ((components p).getLast hne)
    have h2 := join_isPrefix_length (dropSkipped_isPrefix (components p).dropLast)
    have h3 := List.length_pos_iff.2 hlast
    rw [hsplit] at h1
    rw [← hc] at h
    simp at h
    subst h
    rw [List.length_append]
    omega

/-- A path and all directories above it, nearest first. -/
def chain (p : Path) : List Path :=
  p :: match _h : parent? p with
    | none => []
    | some q => chain q
termination_by p.length
decreasing_by exact parent?_length _h

end Path

end CallManual
