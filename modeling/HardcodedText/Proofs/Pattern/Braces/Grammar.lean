import Mathlib.Data.List.Infix
import HardcodedText.Proofs.Pattern.Braces

/-!
# What patterns with braces stand for

A pattern is a sequence of characters and groups, and a group is a choice between patterns
(`Pattern`, `Choice`).  What a pattern stands for is said by recursion on it: a sequence stands for
all ways to put one text for each of its parts together, a group for what its alternatives stand
for, one alternative after the other.

Expanding the text of a pattern opens one group after another and puts each alternative before all
that follows the group, which is no part of the text any more.  So the statement that carries the
proof is about a pattern with more text after it (`Pattern.expandChars_text_append`).  The texts of
patterns are exactly the texts with balanced braces (`Balanced.exists_pattern`,
`Pattern.count_text`).
-/

namespace HardcodedText.Braces

/-- One text of the first list before one of the second, in all ways.  The first choice varies
slowest. -/
def combine {α : Type} [Append α] (xs ys : List α) : List α :=
  xs.flatMap fun x ↦ ys.map (x ++ ·)

/-! ## Patterns -/

/-- Whether a character stands for itself.  A comma does not where it divides alternatives. -/
def isLiteral (inner : Bool) (c : Char) : Bool :=
  c != '\x7b' && c != '\x7d' && !(inner && c == ',')

mutual

/-- A sequence of characters and groups.  An `inner` one is an alternative of a group. -/
inductive Pattern : (inner : Bool) → Type
  /-- Nothing more. -/
  | nil {inner : Bool} : Pattern inner
  /-- A character that stands for itself. -/
  | char {inner : Bool} (c : Char) (h : isLiteral inner c = true) (rest : Pattern inner) :
      Pattern inner
  /-- A group. -/
  | group {inner : Bool} (choice : Choice) (rest : Pattern inner) : Pattern inner

/-- One or more alternatives. -/
inductive Choice : Type
  /-- The last alternative. -/
  | last (p : Pattern true) : Choice
  /-- One alternative before others. -/
  | cons (p : Pattern true) (more : Choice) : Choice

end

mutual

/-- The text of a pattern. -/
def Pattern.text {inner : Bool} : Pattern inner → List Char
  | .nil => []
  | .char c _ rest => c :: rest.text
  | .group choice rest => '\x7b' :: choice.text ++ '\x7d' :: rest.text

/-- The text between the braces of a group. -/
def Choice.text : Choice → List Char
  | .last p => p.text
  | .cons p more => p.text ++ ',' :: more.text

end

mutual

/-- The texts that a pattern stands for, in order. -/
def Pattern.denotation {inner : Bool} : Pattern inner → List (List Char)
  | .nil => [[]]
  | .char c _ rest => combine [[c]] rest.denotation
  | .group choice rest => combine choice.denotation rest.denotation

/-- The texts that a choice stands for, in order. -/
def Choice.denotation : Choice → List (List Char)
  | .last p => p.denotation
  | .cons p more => p.denotation ++ more.denotation

end

/-- The texts of the alternatives of a choice. -/
def Choice.texts : Choice → List (List Char)
  | .last p => [p.text]
  | .cons p more => p.text :: more.texts

theorem isLiteral_iff {inner : Bool} {c : Char} :
    isLiteral inner c = true ↔ c ≠ '\x7b' ∧ c ≠ '\x7d' ∧ (inner = true → c ≠ ',') := by
  cases inner <;> simp [isLiteral, and_assoc]

/-! ## Combining texts -/

theorem combine_nil_singleton (ys : List (List Char)) : combine [[]] ys = ys := by
  rw [combine, List.flatMap_singleton]
  exact List.map_id ys

theorem combine_singleton (x : List Char) (ys : List (List Char)) :
    combine [x] ys = ys.map (x ++ ·) :=
  List.flatMap_singleton ..

theorem combine_nil_right (xs : List (List Char)) : combine xs [[]] = xs := by
  have hself : ∀ x : List Char, [[]].map (x ++ ·) = [x] := fun x ↦
    congrArg (fun y ↦ [y]) (List.append_nil x)
  rw [combine, funext hself]
  exact List.flatMap_singleton' xs

theorem combine_append (xs xs' ys : List (List Char)) :
    combine (xs ++ xs') ys = combine xs ys ++ combine xs' ys :=
  List.flatMap_append

theorem combine_map (x : List Char) (ys zs : List (List Char)) :
    combine (ys.map (x ++ ·)) zs = (combine ys zs).map (x ++ ·) := by
  rw [combine, combine, List.flatMap_map, List.map_flatMap]
  refine List.flatMap_congr fun y _ ↦ ?_
  rw [List.map_map]
  exact List.map_congr_left fun z _ ↦ List.append_assoc x y z

theorem combine_assoc (xs ys zs : List (List Char)) :
    combine (combine xs ys) zs = combine xs (combine ys zs) := by
  induction xs with
  | nil => rfl
  | cons x xs ih =>
    have hcons (ws : List (List Char)) : combine (x :: xs) ws = ws.map (x ++ ·) ++ combine xs ws :=
      List.flatMap_cons ..
    rw [hcons, hcons, combine_append, combine_map, ih]

/-- Texts may be put together as lists of characters. -/
theorem map_ofList_combine (xs ys : List (List Char)) :
    (combine xs ys).map String.ofList = combine (xs.map .ofList) (ys.map .ofList) := by
  rw [combine, combine, List.map_flatMap, List.flatMap_map]
  refine List.flatMap_congr fun x _ ↦ ?_
  rw [List.map_map, List.map_map]
  exact List.map_congr_left fun y _ ↦ String.ofList_append

/-! ## Expanding the text of a pattern -/

theorem closeGroup?_open (depth : Nat) (cs : List Char) :
    closeGroup? depth ('\x7b' :: cs) =
      (closeGroup? (depth + 1) cs).map fun (body, rest) ↦ ('\x7b' :: body, rest) := rfl

theorem closeGroup?_close (depth : Nat) (cs : List Char) :
    closeGroup? (depth + 1) ('\x7d' :: cs) =
      (closeGroup? depth cs).map fun (body, rest) ↦ ('\x7d' :: body, rest) := rfl

theorem closeGroup?_literal {depth : Nat} {c : Char} (hopen : c ≠ '\x7b') (hclose : c ≠ '\x7d')
    (cs : List Char) :
    closeGroup? depth (c :: cs) =
      (closeGroup? depth cs).map fun (body, rest) ↦ (c :: body, rest) := by
  rw [closeGroup?.eq_def]
  dsimp only
  rw [if_neg hopen, if_neg hclose]

mutual

/-- A pattern holds no brace that closes a group around it. -/
theorem Pattern.closeGroup?_text_append {inner : Bool} :
    ∀ (p : Pattern inner) (depth : Nat) (cs : List Char),
      closeGroup? depth (p.text ++ cs) =
        (closeGroup? depth cs).map fun (body, rest) ↦ (p.text ++ body, rest)
  | .nil, depth, cs => Option.map_id'.symm
  | .char c h rest, depth, cs => by
    obtain ⟨hopen, hclose, -⟩ := isLiteral_iff.mp h
    rw [Pattern.text, List.cons_append, closeGroup?_literal hopen hclose,
      rest.closeGroup?_text_append, Option.map_map]
    rfl
  | .group choice rest, depth, cs => by
    have hinside := choice.closeGroup?_text_append (depth + 1) ('\x7d' :: (rest.text ++ cs))
    rw [Pattern.text, List.append_assoc, List.cons_append, closeGroup?_open, List.cons_append,
      hinside, closeGroup?_close, rest.closeGroup?_text_append, Option.map_map, Option.map_map,
      Option.map_map]
    refine congrArg (Option.map · _) (funext fun (body, rest) ↦ ?_)
    simp

/-- A choice holds no brace that closes a group around it. -/
theorem Choice.closeGroup?_text_append :
    ∀ (choice : Choice) (depth : Nat) (cs : List Char),
      closeGroup? depth (choice.text ++ cs) =
        (closeGroup? depth cs).map fun (body, rest) ↦ (choice.text ++ body, rest)
  | .last p, depth, cs => p.closeGroup?_text_append depth cs
  | .cons p more, depth, cs => by
    rw [Choice.text, List.append_assoc, p.closeGroup?_text_append, List.cons_append,
      closeGroup?_literal (by decide) (by decide), more.closeGroup?_text_append, Option.map_map,
      Option.map_map]
    refine congrArg (Option.map · _) (funext fun (body, rest) ↦ ?_)
    simp

end

theorem Choice.closeGroup?_text (choice : Choice) (rest : List Char) :
    closeGroup? 0 (choice.text ++ '\x7d' :: rest) = some (choice.text, rest) := by
  rw [choice.closeGroup?_text_append]
  exact congrArg (fun body ↦ some (body, rest)) (List.append_nil _)

theorem alternatives_literal {depth : Nat} {c : Char} (hopen : c ≠ '\x7b') (hclose : c ≠ '\x7d')
    (hcomma : c = ',' → depth ≠ 0) (cs : List Char) :
    alternatives depth (c :: cs) = (alternatives depth cs).modifyHead (c :: ·) := by
  rw [alternatives, if_neg fun h ↦ hcomma h.1 h.2, depthAfter, if_neg hopen, if_neg hclose]

theorem alternatives_open (depth : Nat) (cs : List Char) :
    alternatives depth ('\x7b' :: cs) =
      (alternatives (depth + 1) cs).modifyHead ('\x7b' :: ·) := rfl

theorem alternatives_close (depth : Nat) (cs : List Char) :
    alternatives (depth + 1) ('\x7d' :: cs) =
      (alternatives depth cs).modifyHead ('\x7d' :: ·) := rfl

mutual

/-- A pattern inside of a group holds no comma at which the group is cut. -/
theorem Pattern.alternatives_text_append :
    ∀ (p : Pattern true) (depth : Nat) (cs : List Char),
      alternatives depth (p.text ++ cs) = (alternatives depth cs).modifyHead (p.text ++ ·)
  | .nil, depth, cs => (congrFun List.modifyHead_id _).symm
  | .char c h rest, depth, cs => by
    obtain ⟨hopen, hclose, hcomma⟩ := isLiteral_iff.mp h
    rw [Pattern.text, List.cons_append,
      alternatives_literal hopen hclose (fun heq ↦ absurd heq (hcomma rfl)),
      rest.alternatives_text_append, List.modifyHead_modifyHead]
    rfl
  | .group choice rest, depth, cs => by
    have hinside := choice.alternatives_text_append depth ('\x7d' :: (rest.text ++ cs))
    rw [Pattern.text, List.append_assoc, List.cons_append, alternatives_open, List.cons_append,
      hinside, alternatives_close, rest.alternatives_text_append, List.modifyHead_modifyHead,
      List.modifyHead_modifyHead, List.modifyHead_modifyHead]
    refine congrArg (List.modifyHead · _) (funext fun first ↦ ?_)
    simp

/-- A choice in an inner group holds no comma at which the outer group is cut. -/
theorem Choice.alternatives_text_append :
    ∀ (choice : Choice) (depth : Nat) (cs : List Char),
      alternatives (depth + 1) (choice.text ++ cs) =
        (alternatives (depth + 1) cs).modifyHead (choice.text ++ ·)
  | .last p, depth, cs => p.alternatives_text_append (depth + 1) cs
  | .cons p more, depth, cs => by
    rw [Choice.text, List.append_assoc, p.alternatives_text_append, List.cons_append,
      alternatives_literal (by decide) (by decide) (fun _ ↦ Nat.succ_ne_zero depth),
      more.alternatives_text_append, List.modifyHead_modifyHead, List.modifyHead_modifyHead]
    refine congrArg (List.modifyHead · _) (funext fun first ↦ ?_)
    simp

end

theorem Choice.alternatives_text : ∀ choice : Choice, alternatives 0 choice.text = choice.texts
  | .last p => by
    have h := p.alternatives_text_append 0 []
    rw [List.append_nil] at h
    rw [Choice.text, h, alternatives, Choice.texts]
    exact congrArg (fun text ↦ [text]) (List.append_nil _)
  | .cons p more => by
    rw [Choice.text, p.alternatives_text_append, alternatives, if_pos ⟨rfl, rfl⟩,
      more.alternatives_text, Choice.texts]
    exact congrArg (fun text ↦ text :: more.texts) (List.append_nil _)

mutual

/-- What a pattern stands for is put before the expansions of all that follows it. -/
theorem Pattern.expandChars_text_append {inner : Bool} :
    ∀ (p : Pattern inner) {cs : List Char} {es : List (List Char)}, expandChars cs = .ok es →
      expandChars (p.text ++ cs) = .ok (combine p.denotation es)
  | .nil, cs, es, h => by
    rw [Pattern.text, Pattern.denotation, combine_nil_singleton]
    exact h
  | .char c hc rest, cs, es, h => by
    obtain ⟨hopen, hclose, -⟩ := isLiteral_iff.mp hc
    have hopen' : '\x7b' ∉ [c] := fun hmem ↦ hopen (List.mem_singleton.mp hmem).symm
    have hclose' : '\x7d' ∉ [c] := fun hmem ↦ hclose (List.mem_singleton.mp hmem).symm
    have hrest := expandChars_append_left (rest.expandChars_text_append h) hopen' hclose'
    rw [← combine_singleton, ← combine_assoc] at hrest
    exact hrest
  | .group choice rest, cs, es, h => by
    have htext : (Pattern.group choice rest : Pattern inner).text ++ cs =
        [] ++ '\x7b' :: (choice.text ++ '\x7d' :: (rest.text ++ cs)) := by
      simp [Pattern.text]
    obtain ⟨tails, htails, hflatten⟩ :=
      choice.exists_mapM_expandChars (rest.expandChars_text_append h)
    rw [htext, expandChars_group List.not_mem_nil, choice.closeGroup?_text]
    dsimp only
    rw [choice.alternatives_text, htails, Pattern.denotation, combine_assoc, ← hflatten]
    exact congrArg Except.ok (List.map_id _)

/-- The alternatives of a choice are expanded one after the other, with the same text after them. -/
theorem Choice.exists_mapM_expandChars :
    ∀ (choice : Choice) {cs : List Char} {es : List (List Char)}, expandChars cs = .ok es →
      ∃ tails, (choice.texts.mapM fun a ↦ expandChars (a ++ cs)) = .ok tails ∧
        tails.flatten = combine choice.denotation es
  | .last p, cs, es, h => by
    refine ⟨[combine p.denotation es], ?_, List.flatten_singleton⟩
    rw [Choice.texts, List.mapM_cons, p.expandChars_text_append h]
    rfl
  | .cons p more, cs, es, h => by
    obtain ⟨tails, htails, hflatten⟩ := more.exists_mapM_expandChars h
    refine ⟨combine p.denotation es :: tails, ?_, ?_⟩
    · rw [Choice.texts, List.mapM_cons, p.expandChars_text_append h, htails]
      rfl
    · rw [List.flatten_cons, hflatten, Choice.denotation, combine_append]

end

theorem Pattern.expandChars_text {inner : Bool} (p : Pattern inner) :
    expandChars p.text = .ok p.denotation := by
  have hnil : expandChars [] = .ok [[]] := expandChars_of_notMem List.not_mem_nil
  have h := p.expandChars_text_append hnil
  rwa [List.append_nil, combine_nil_right] at h

/-! ## Texts with balanced braces -/

/-- Every brace that closes a group comes after one that opens it, and all groups are closed. -/
structure Balanced (cs : List Char) : Prop where
  /-- No beginning of the text closes more groups than it opens. -/
  opened : ∀ ds, ds <+: cs → ds.count '\x7d' ≤ ds.count '\x7b'
  /-- As many groups are closed as are opened. -/
  closed : cs.count '\x7b' = cs.count '\x7d'

instance (cs : List Char) : Decidable (Balanced cs) :=
  decidable_of_iff
    ((∀ ds ∈ cs.inits, ds.count '\x7d' ≤ ds.count '\x7b') ∧ cs.count '\x7b' = cs.count '\x7d')
    ⟨fun ⟨opened, closed⟩ ↦ ⟨fun ds hds ↦ opened ds ((List.mem_inits _ _).mpr hds), closed⟩,
      fun h ↦ ⟨fun ds hds ↦ h.opened ds ((List.mem_inits _ _).mp hds), h.closed⟩⟩

/-- What follows a part that closes the groups it opens is balanced on its own. -/
theorem Balanced.of_append {as bs : List Char} (h : Balanced (as ++ bs))
    (has : as.count '\x7b' = as.count '\x7d') : Balanced bs := by
  constructor
  · intro ds hds
    have hprefix := h.opened (as ++ ds) ((List.prefix_append_right_inj as).mpr hds)
    rw [List.count_append, List.count_append] at hprefix
    omega
  · have htotal := h.closed
    rw [List.count_append, List.count_append] at htotal
    omega

mutual

theorem Pattern.count_text {inner : Bool} :
    ∀ p : Pattern inner, p.text.count '\x7b' = p.text.count '\x7d'
  | .nil => rfl
  | .char c h rest => by
    obtain ⟨hopen, hclose, -⟩ := isLiteral_iff.mp h
    rw [Pattern.text, List.count_cons_of_ne hopen, List.count_cons_of_ne hclose, rest.count_text]
  | .group choice rest => by
    have hinside := choice.count_text
    have hrest := rest.count_text
    rw [Pattern.text, List.count_append, List.count_append, List.count_cons_self,
      List.count_cons_self, List.count_cons_of_ne (by decide), List.count_cons_of_ne (by decide),
      hinside, hrest]
    omega

theorem Choice.count_text : ∀ choice : Choice, choice.text.count '\x7b' = choice.text.count '\x7d'
  | .last p => p.count_text
  | .cons p more => by
    rw [Choice.text, List.count_append, List.count_append, List.count_cons_of_ne (by decide),
      List.count_cons_of_ne (by decide), p.count_text, more.count_text]

end

/-- A choice with something put before its first alternative. -/
def Choice.modifyFirst (f : Pattern true → Pattern true) : Choice → Choice
  | .last p => .last (f p)
  | .cons p more => .cons (f p) more

theorem Choice.text_modifyFirst {f : Pattern true → Pattern true} {cs : List Char}
    (h : ∀ p, (f p).text = cs ++ p.text) :
    ∀ choice : Choice, (choice.modifyFirst f).text = cs ++ choice.text
  | .last p => h p
  | .cons p more => by
    rw [Choice.modifyFirst, Choice.text, h, List.append_assoc, Choice.text]

/-- A text that closes more groups than it opens is a choice up to the first brace too many. -/
theorem exists_choice {cs : List Char} (h : cs.count '\x7b' < cs.count '\x7d') :
    ∃ (choice : Choice) (rest : List Char), cs = choice.text ++ '\x7d' :: rest := by
  match cs with
  | [] => exact absurd h (Nat.lt_irrefl 0)
  | c :: cs =>
    by_cases hclose : c = '\x7d'
    · subst hclose
      exact ⟨.last .nil, cs, rfl⟩
    by_cases hopen : c = '\x7b'
    · subst hopen
      rw [List.count_cons_self, List.count_cons_of_ne (by decide)] at h
      have hmore : cs.count '\x7b' < cs.count '\x7d' := Nat.lt_of_succ_lt h
      -- The first brace too many closes this group, so there is another one after it.
      obtain ⟨inside, after, hinside⟩ := exists_choice hmore
      have hcount := inside.count_text
      have hafter : after.count '\x7b' < after.count '\x7d' := by
        rw [hinside, List.count_append, List.count_append, List.count_cons_self,
          List.count_cons_of_ne (by decide)] at h
        omega
      obtain ⟨choice, rest, hrest⟩ := exists_choice hafter
      refine ⟨choice.modifyFirst (.group inside), rest, ?_⟩
      rw [Choice.text_modifyFirst (fun p ↦ List.append_cons ..), hinside, hrest]
      simp
    · rw [List.count_cons_of_ne hopen, List.count_cons_of_ne hclose] at h
      obtain ⟨choice, rest, rfl⟩ := exists_choice h
      by_cases hcomma : c = ','
      · subst hcomma
        exact ⟨.cons .nil choice, rest, rfl⟩
      · have hliteral : isLiteral true c = true :=
          isLiteral_iff.mpr ⟨hopen, hclose, fun _ ↦ hcomma⟩
        have hfirst (p : Pattern true) : (Pattern.char c hliteral p).text = [c] ++ p.text := rfl
        refine ⟨choice.modifyFirst (.char c hliteral), rest, ?_⟩
        rw [Choice.text_modifyFirst hfirst]
        rfl
termination_by cs.length
decreasing_by
  · exact Nat.lt_succ_self _
  · rw [hinside, List.length_cons, List.length_append, List.length_cons]
    omega
  · exact Nat.lt_succ_self _

/-- A text with balanced braces is the text of a pattern. -/
theorem Balanced.exists_pattern {cs : List Char} (h : Balanced cs) :
    ∃ p : Pattern false, p.text = cs := by
  match cs with
  | [] => exact ⟨.nil, rfl⟩
  | c :: cs =>
    have hclose : c ≠ '\x7d' := by
      rintro rfl
      have hfirst := h.opened ['\x7d'] (List.cons_prefix_cons.mpr ⟨rfl, List.nil_prefix⟩)
      exact absurd hfirst (by decide)
    by_cases hopen : c = '\x7b'
    · subst hopen
      have htotal := h.closed
      rw [List.count_cons_self, List.count_cons_of_ne (by decide)] at htotal
      have hmore : cs.count '\x7b' < cs.count '\x7d' := htotal ▸ Nat.lt_succ_self _
      obtain ⟨choice, after, hafter⟩ := exists_choice hmore
      have hgroup : '\x7b' :: cs = '\x7b' :: choice.text ++ ['\x7d'] ++ after := by
        rw [hafter, List.append_assoc]
        rfl
      have hcount : ('\x7b' :: choice.text ++ ['\x7d']).count '\x7b' =
          ('\x7b' :: choice.text ++ ['\x7d']).count '\x7d' := by
        rw [List.count_append, List.count_append, List.count_cons_self,
          List.count_cons_of_ne (by decide), choice.count_text]
        rfl
      rw [hgroup] at h
      obtain ⟨rest, hrest⟩ := (h.of_append hcount).exists_pattern
      refine ⟨.group choice rest, ?_⟩
      rw [Pattern.text, hrest, hafter, List.cons_append]
    · have hcount : [c].count '\x7b' = [c].count '\x7d' := by
        rw [List.count_cons_of_ne hopen, List.count_cons_of_ne hclose]
        rfl
      have hsingle : Balanced ([c] ++ cs) := h
      obtain ⟨rest, hrest⟩ := (hsingle.of_append hcount).exists_pattern
      refine ⟨.char c (isLiteral_iff.mpr ⟨hopen, hclose, nofun⟩) rest, ?_⟩
      rw [Pattern.text, hrest]
termination_by cs.length
decreasing_by
  · rw [hafter, List.length_cons, List.length_append, List.length_cons]
    omega
  · exact Nat.lt_succ_self _

/-! ## Texts -/

theorem expand_of_expandChars {cs : List Char} {es : List (List Char)}
    (h : expandChars cs = .ok es) : expand (.ofList cs) = .ok (es.map .ofList) := by
  rw [expand, String.toList_ofList, h]

/-- The text of a pattern is expanded to what the pattern stands for, and two texts with balanced
braces are expanded independently of each other. -/
theorem expand_denotes :
    (∀ p : Pattern false, expand (.ofList p.text) = .ok (p.denotation.map .ofList)) ∧
      ∀ p q : String, Balanced p.toList → Balanced q.toList →
        ∃ ps qs, expand p = .ok ps ∧ expand q = .ok qs ∧ expand (p ++ q) = .ok (combine ps qs) := by
  refine ⟨fun p ↦ expand_of_expandChars p.expandChars_text, fun p q hp hq ↦ ?_⟩
  obtain ⟨first, hfirst⟩ := hp.exists_pattern
  obtain ⟨second, hsecond⟩ := hq.exists_pattern
  obtain rfl : String.ofList first.text = p := by rw [hfirst, String.ofList_toList]
  obtain rfl : String.ofList second.text = q := by rw [hsecond, String.ofList_toList]
  refine ⟨first.denotation.map .ofList, second.denotation.map .ofList,
    expand_of_expandChars first.expandChars_text, expand_of_expandChars second.expandChars_text, ?_⟩
  rw [← String.ofList_append, ← map_ofList_combine]
  exact expand_of_expandChars (first.expandChars_text_append second.expandChars_text)

/-- A group with a group in it after a group of two. -/
theorem expand_denotes_groups :
    Balanced "\x7ba,b\x7d".toList ∧ Balanced "\x7bc,\x7bd,\x7d.x\x7d".toList ∧
      expand ("\x7ba,b\x7d" ++ "\x7bc,\x7bd,\x7d.x\x7d") =
        .ok ["ac", "ad.x", "a.x", "bc", "bd.x", "b.x"] := by
  have hfirst : Balanced "\x7ba,b\x7d".toList := by decide
  have hsecond : Balanced "\x7bc,\x7bd,\x7d.x\x7d".toList := by decide
  refine ⟨hfirst, hsecond, ?_⟩
  obtain ⟨ps, qs, hps, hqs, h⟩ := expand_denotes.2 _ _ hfirst hsecond
  have hps' : expand "\x7ba,b\x7d" = .ok ["a", "b"] := Except.eq_ok_of_toOption (by decide +kernel)
  have hqs' : expand "\x7bc,\x7bd,\x7d.x\x7d" = .ok ["c", "d.x", ".x"] :=
    Except.eq_ok_of_toOption (by decide +kernel)
  cases hps'.symm.trans hps
  cases hqs'.symm.trans hqs
  exact h

end HardcodedText.Braces
