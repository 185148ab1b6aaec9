import HardcodedText.Text.Quoted

/-!
# Brace alternatives

`a{b,c}d` stands for `abd` and `acd`.  Groups may be nested and alternatives may be empty.  The
first group is opened, each of its alternatives is put before what follows the group, and the
results are expanded in turn, so the leftmost choice varies slowest.
-/

namespace HardcodedText.Braces

/-- Splits what follows an opening brace at the brace that closes it, where `depth` inner groups
are open. -/
def closeGroup? : Nat → List Char → Option (List Char × List Char)
  | _, [] => none
  | depth, c :: cs =>
    if c = '\x7b' then (closeGroup? (depth + 1) cs).map fun (body, rest) ↦ (c :: body, rest)
    else if c = '\x7d' then
      match depth with
      | 0 => some ([], cs)
      | depth + 1 => (closeGroup? depth cs).map fun (body, rest) ↦ (c :: body, rest)
    else (closeGroup? depth cs).map fun (body, rest) ↦ (c :: body, rest)

/-- The number of open groups after a character. -/
def depthAfter (depth : Nat) (c : Char) : Nat :=
  if c = '\x7b' then depth + 1 else if c = '\x7d' then depth - 1 else depth

/-- The alternatives of a group: its body cut at the commas that lie in no inner group. -/
def alternatives : Nat → List Char → List (List Char)
  | _, [] => [[]]
  | depth, c :: cs =>
    if c = ',' ∧ depth = 0 then [] :: alternatives depth cs
    else (alternatives (depthAfter depth c) cs).modifyHead (c :: ·)

theorem length_closeGroup? {depth : Nat} {cs body rest : List Char}
    (h : closeGroup? depth cs = some (body, rest)) : body.length + rest.length < cs.length := by
  fun_induction closeGroup? depth cs generalizing body rest with
  | case1 => simp at h
  | case2 depth cs ih =>
    obtain ⟨⟨b, r⟩, hb, hbr⟩ := Option.map_eq_some_iff.1 h
    simp only [Prod.mk.injEq] at hbr
    have := ih hb
    obtain ⟨rfl, rfl⟩ := hbr
    simp only [List.length_cons]
    omega
  | case3 cs =>
    simp only [Option.some.injEq, Prod.mk.injEq] at h
    obtain ⟨rfl, rfl⟩ := h
    simp
  | case4 depth cs _ ih =>
    obtain ⟨⟨b, r⟩, hb, hbr⟩ := Option.map_eq_some_iff.1 h
    simp only [Prod.mk.injEq] at hbr
    have := ih hb
    obtain ⟨rfl, rfl⟩ := hbr
    simp only [List.length_cons]
    omega
  | case5 depth c cs _ _ ih =>
    obtain ⟨⟨b, r⟩, hb, hbr⟩ := Option.map_eq_some_iff.1 h
    simp only [Prod.mk.injEq] at hbr
    have := ih hb
    obtain ⟨rfl, rfl⟩ := hbr
    simp only [List.length_cons]
    omega

theorem length_of_mem_alternatives {depth : Nat} {cs a : List Char}
    (h : a ∈ alternatives depth cs) : a.length ≤ cs.length := by
  induction cs generalizing depth a with
  | nil => simp_all [alternatives]
  | cons c cs ih =>
    rw [alternatives] at h
    split at h
    · rcases List.mem_cons.1 h with rfl | h
      · simp
      · exact Nat.le_succ_of_le (ih h)
    · match ha : alternatives (depthAfter depth c) cs with
      | [] => simp [ha] at h
      | x :: xs =>
        rw [ha] at h
        rcases List.mem_cons.1 h with rfl | h
        · have : x ∈ alternatives (depthAfter depth c) cs := by simp [ha]
          simpa using ih this
        · have : a ∈ alternatives (depthAfter depth c) cs := by simp [ha, h]
          exact Nat.le_succ_of_le (ih this)

/-- The expansions of a pattern, or the pattern in which the braces do not pair up. -/
def expandChars (cs : List Char) : Except (List Char) (List (List Char)) :=
  match _hd : cs.dropWhile (· != '\x7b') with
  | [] => if cs.contains '\x7d' then .error cs else .ok [cs]
  | _ :: after =>
    match _hg : closeGroup? 0 after with
    | none => .error cs
    | some (body, rest) => do
      let tails ← (alternatives 0 body).attach.mapM fun ⟨a, _⟩ ↦ expandChars (a ++ rest)
      return tails.flatten.map (cs.takeWhile (· != '\x7b') ++ ·)
termination_by cs.length
decreasing_by
  rename_i ha
  have h₁ := length_of_mem_alternatives ha
  have h₂ := length_closeGroup? _hg
  have h₃ : (cs.dropWhile (· != '\x7b')).length ≤ cs.length := (List.dropWhile_sublist _).length_le
  rw [_hd] at h₃
  simp only [List.length_append, List.length_cons] at *
  omega

/-- Braces that do not pair up. -/
structure Unbalanced where
  /-- The pattern that they were found in. -/
  pattern : String
deriving DecidableEq, Repr

/-- The wording of the error. -/
def Unbalanced.message (e : Unbalanced) : String :=
  s!"Unbalanced braces in pattern: {Text.quoted e.pattern}"

/-- The expansions of a pattern, in order. -/
def expand (pattern : String) : Except Unbalanced (List String) :=
  match expandChars pattern.toList with
  | .ok expansions => .ok (expansions.map .ofList)
  | .error cs => .error ⟨.ofList cs⟩

end HardcodedText.Braces
