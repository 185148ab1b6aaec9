import Mathlib.Data.List.Infix
import HardcodedText.Proofs.Except
import HardcodedText.Pattern.Regex.Reader

/-!
# Reading expressions goes forward

Each part of the reader leaves a part of the tokens that it was given, and a fault lies in the text.
Both are said by `Regex.Ensures` and shown part by part.  A step of the reader uses up a token, so
the number of tokens is enough steps (`Regex.Reading.readOn_eq_readOn`), as it is for the members of
a class (`Regex.readClass_eq_readClass`); and an error in an expression names a place in it
(`Regex.position_le_of_read`).
-/

namespace HardcodedText.Regex

variable {α β : Type} {size : Nat} {rest : List Token} {input : Input}

/-! ## Computations with faults in the text -/

/-- `Ensures size P x`: if `x` succeeds, then with a result that has the property `P`; if not, the
fault lies in a text with `size` characters. -/
def Ensures (size : Nat) (P : α → Prop) (x : Except ReadError α) : Prop :=
  (∀ a, x = .ok a → P a) ∧ ∀ e, x = .error e → ∀ n, e.position = some n → n ≤ size

namespace Ensures

variable {P : α → Prop} {Q : β → Prop} {x : Except ReadError α} {f : α → Except ReadError β}

theorem ok {a : α} (h : P a) : Ensures size P (.ok a) :=
  ⟨by rintro _ ⟨⟩; exact h, by rintro _ ⟨⟩⟩

theorem error {e : ReadError} (h : ∀ n, e.position = some n → n ≤ size) :
    Ensures size P (.error e) :=
  ⟨by rintro _ ⟨⟩, by rintro _ ⟨⟩; exact h⟩

/-- A fault at a place in the text. -/
theorem error_at {fault : Fault} {n : Nat} (h : n ≤ size) :
    Ensures size P (.error ⟨fault, some n⟩) :=
  error fun _ hn ↦ Option.some_inj.mp hn ▸ h

/-- A fault that has no place. -/
theorem error_nowhere {fault : Fault} : Ensures size P (.error ⟨fault, none⟩) :=
  error fun _ hn ↦ nomatch hn

theorem imp {P' : α → Prop} (h : Ensures size P x) (himp : ∀ a, P a → P' a) : Ensures size P' x :=
  ⟨fun a ha ↦ himp a (h.1 a ha), h.2⟩

theorem bind (h : Ensures size P x) (hf : ∀ a, P a → Ensures size Q (f a)) :
    Ensures size Q (x >>= f) := by
  constructor
  · intro b hb
    obtain ⟨a, ha, hb⟩ := Except.bind_eq_ok_iff.mp hb
    exact (hf a (h.1 a ha)).1 b hb
  · intro e he
    rcases Except.bind_eq_error_iff.mp he with he | ⟨a, ha, he⟩
    · exact h.2 e he
    · exact (hf a (h.1 a ha)).2 e he

theorem map {g : α → β} (h : Ensures size P x) (hg : ∀ a, P a → Q (g a)) :
    Ensures size Q (x.map g) := by
  cases x with
  | ok a => exact ok (hg a (h.1 a rfl))
  | error e => exact error (h.2 e rfl)

end Ensures

/-- Input of a text with `size` characters that is at the tokens `rest` or further on. -/
structure Input.Within (size : Nat) (rest : List Token) (input : Input) : Prop where
  /-- The size of the text. -/
  size_eq : input.size = size
  /-- What remains is an end of `rest`. -/
  suffix : input.rest <:+ rest
  /-- The tokens that remain begin in the text. -/
  offset_le : ∀ t ∈ input.rest, t.offset ≤ size

/-- `Reads size rest P x`: `x` leaves an end of the tokens `rest`, and a result with the property
`P`. -/
def Reads (size : Nat) (rest : List Token) (P : α → Prop) (x : Except ReadError (α × Input)) :
    Prop :=
  Ensures size (fun y ↦ P y.1 ∧ y.2.Within size rest) x

/-! ## Input -/

namespace Input.Within

variable {P : α → Prop}

theorem place_le (h : input.Within size rest) : input.place ≤ size := by
  unfold place
  split
  · exact h.size_eq.le
  · next t ts hrest => exact h.offset_le t (hrest ▸ List.mem_cons_self)

theorem self (h : input.Within size rest) : input.Within size input.rest :=
  ⟨h.size_eq, List.suffix_rfl, h.offset_le⟩

theorem fail (h : input.Within size rest) (fault : Fault) (back : Nat) :
    Ensures size P (input.fail fault back) :=
  .error_at ((Nat.sub_le _ _).trans h.place_le)

theorem trans {rest' : List Token} (h : input.Within size rest') (hsuffix : rest' <:+ rest) :
    input.Within size rest :=
  ⟨h.size_eq, h.suffix.trans hsuffix, h.offset_le⟩

/-- Moving on leaves exactly the tokens moved to. -/
theorem move_self (h : input.Within size rest) {rest' : List Token}
    (hsuffix : rest' <:+ input.rest) :
    Ensures size (fun i ↦ i.rest = rest' ∧ i.Within size rest') (input.move rest') := by
  unfold Input.move
  split
  · exact .error_at ((Nat.sub_le _ _).trans h.size_eq.le)
  · have hoffset (t : Token) (ht : t ∈ rest') := h.offset_le t (hsuffix.subset ht)
    exact .ok ⟨rfl, h.size_eq, List.suffix_rfl, hoffset⟩

theorem move (h : input.Within size rest) {rest' : List Token} (hsuffix : rest' <:+ input.rest) :
    Ensures size (Within size rest) (input.move rest') :=
  (h.move_self hsuffix).imp fun _ hi ↦ hi.2.trans (hsuffix.trans h.suffix)

theorem drop (h : input.Within size rest) : Ensures size (Within size rest) input.drop :=
  h.move (List.tail_suffix _)

theorem skip? (h : input.Within size rest) (c : Char) :
    Ensures size (fun o ↦ ∀ i ∈ o, i.Within size rest) (input.skip? c) := by
  unfold Input.skip?
  split
  · exact h.drop.map fun i hi ↦ by rintro _ ⟨⟩; exact hi
  · exact .ok fun _ hi ↦ nomatch hi

theorem takeWhile (h : input.Within size rest) (p : Char → Bool) (n : Nat) :
    Reads size rest (fun _ ↦ True) (input.takeWhile p n) :=
  (h.move (List.drop_suffix _ _)).map fun _ hi ↦ ⟨trivial, hi⟩

theorem takeUntil (h : input.Within size rest) (terminator : Char) (what : String) :
    Reads size rest (fun _ ↦ True) (input.takeUntil terminator what) := by
  unfold Input.takeUntil
  dsimp only
  have hdrop := List.drop_suffix
    (input.rest.takeWhile (·.plain? != some terminator)).length input.rest
  split
  · refine (h.move (List.nil_suffix)).bind fun i hi ↦ ?_
    split
    · exact hi.fail _ _
    · exact hi.fail _ _
  · next t ts heq =>
    rw [heq] at hdrop
    refine (h.move ((List.suffix_cons t ts).trans hdrop)).bind fun i hi ↦ ?_
    split
    · exact hi.fail _ _
    · exact .ok ⟨trivial, hi⟩

end Input.Within

/-! ## Escapes and classes -/

section Escape

variable (characters : CharacterNames)

theorem reads_hexEscape (h : input.Within size rest) (letter : Char) (count : Nat) :
    Reads size rest (fun _ ↦ True) (hexEscape letter count input) := by
  refine (h.takeWhile isHexDigit count).bind ?_
  rintro ⟨ds, i⟩ ⟨-, hi⟩
  dsimp only
  split
  · exact hi.fail _ _
  · split
    · exact .error_nowhere
    · split
      · exact hi.fail _ _
      · exact .ok ⟨trivial, hi⟩

theorem reads_octalEscape (h : input.Within size rest) (d : Char) (more : Nat) :
    Reads size rest (fun _ ↦ True) (octalEscape d more input) := by
  refine (h.takeWhile isOctalDigit more).bind ?_
  rintro ⟨ds, i⟩ ⟨-, hi⟩
  dsimp only
  split
  · exact .ok ⟨trivial, hi⟩
  · exact hi.fail _ _

theorem reads_namedEscape (h : input.Within size rest) :
    Reads size rest (fun _ ↦ True) (namedEscape characters input) := by
  refine (h.skip? _).bind fun o ho ↦ ?_
  cases o with
  | none => exact h.fail _ _
  | some i =>
    refine ((ho i rfl).takeUntil _ _).bind ?_
    rintro ⟨cs, i⟩ ⟨-, hi⟩
    dsimp only
    split
    · exact .ok ⟨trivial, hi⟩
    · exact hi.fail _ _

theorem reads_characterEscape (h : input.Within size rest) (c : Char) :
    Reads size rest (fun _ ↦ True) (characterEscape characters c input) := by
  unfold characterEscape
  split
  · exact .ok ⟨trivial, h⟩
  · split_ifs
    · exact reads_hexEscape h c 2
    · exact reads_hexEscape h c 4
    · exact reads_hexEscape h c 8
    · exact reads_namedEscape characters h
    · exact h.fail _ _
    · exact .ok ⟨trivial, h⟩

theorem reads_classEscape (h : input.Within size rest) (c : Char) :
    Reads size rest (fun _ ↦ True) (classEscape characters c input) := by
  unfold classEscape
  split
  · exact .ok ⟨trivial, h⟩
  · split_ifs
    · exact .ok ⟨trivial, h⟩
    · exact (reads_octalEscape h c 2).map fun _ hy ↦ hy
    · exact h.fail _ _
    · exact (reads_characterEscape characters h c).map fun _ hy ↦ hy

theorem reads_readMember (h : input.Within size rest) (token : Token) :
    Reads size rest (fun _ ↦ True) (readMember characters token input) := by
  unfold readMember
  split
  · exact reads_classEscape characters h token.char
  · exact .ok ⟨trivial, h⟩

theorem reads_classStep (h : input.Within size rest) {start : Nat} (hstart : start ≤ size)
    (items : List ClassItem) (token : Token) :
    Reads size rest (fun _ ↦ True) (classStep characters start items token input) := by
  unfold classStep
  dsimp only
  split
  · exact .ok ⟨trivial, h⟩
  refine (reads_readMember characters h token).bind ?_
  rintro ⟨member, i⟩ ⟨-, hi⟩
  refine (hi.skip? _).bind fun o ho ↦ ?_
  cases o with
  | none => exact .ok ⟨trivial, hi⟩
  | some i =>
    have hi := ho i rfl
    dsimp only
    split
    · exact .error_at hstart
    · next other _ _ =>
      refine hi.drop.bind fun i hi ↦ ?_
      split
      · exact .ok ⟨trivial, hi⟩
      refine (reads_readMember characters hi other).bind ?_
      rintro ⟨last, i⟩ ⟨-, hi⟩
      dsimp only
      split
      · split
        · exact hi.fail _ _
        · exact .ok ⟨trivial, hi⟩
      · exact hi.fail _ _

theorem reads_readClass (h : input.Within size rest) {start : Nat} (hstart : start ≤ size)
    (n : Nat) (items : List ClassItem) :
    Reads size rest (fun _ ↦ True) (readClass characters start n items input) := by
  induction n generalizing items input with
  | zero => exact .error_at hstart
  | succ n ih =>
    unfold readClass
    split
    · exact .error_at hstart
    · next token _ _ =>
      refine h.drop.bind fun i hi ↦ ?_
      refine (reads_classStep characters hi hstart items token).bind ?_
      rintro ⟨⟨items⟩ | ⟨items⟩, i⟩ ⟨-, hi⟩
      · exact ih hi items
      · exact .ok ⟨trivial, hi⟩

/-- The first of the tokens that remain is used up by going past it. -/
theorem Input.Within.drop_cons (h : input.Within size rest) {token : Token} {tokens : List Token}
    (hrest : input.rest = token :: tokens) :
    Ensures size (Input.Within size tokens) input.drop := by
  have hsuffix : tokens <:+ input.rest := hrest ▸ List.suffix_cons token tokens
  rw [Input.drop, hrest]
  exact (h.move_self hsuffix).imp fun _ hi ↦ hi.2

/-- As many members as there are tokens are enough for a class. -/
theorem readClass_eq_readClass (h : input.Within size rest) {start : Nat} (hstart : start ≤ size)
    (items : List ClassItem) {n m : Nat} (hn : input.rest.length ≤ n)
    (hm : input.rest.length ≤ m) :
    readClass characters start n items input = readClass characters start m items input := by
  induction n generalizing m items input rest with
  | zero =>
    have hempty : input.rest = [] := List.eq_nil_of_length_eq_zero (Nat.le_zero.mp hn)
    cases m with
    | zero => rfl
    | succ m => rw [readClass, readClass, hempty]
  | succ n ih =>
    cases hrest : input.rest with
    | nil =>
      cases m with
      | zero => rw [readClass, readClass, hrest]
      | succ m => rw [readClass, readClass, hrest]
    | cons token tokens =>
      rw [hrest] at hn hm
      cases m with
      | zero => exact absurd hm (Nat.not_succ_le_zero _)
      | succ m =>
        rw [readClass, readClass, hrest]
        dsimp only
        cases hdrop : input.drop with
        | error e => rfl
        | ok i =>
          have hi := (h.drop_cons hrest).1 i hdrop
          have hstep := reads_classStep characters hi hstart items token
          change classStep characters start items token i >>= _ =
            classStep characters start items token i >>= _
          cases hread : classStep characters start items token i with
          | error e => rfl
          | ok y =>
            obtain ⟨-, hy⟩ := hstep.1 y hread
            have hlength := hy.suffix.length_le
            simp only [List.length_cons] at hn hm
            obtain ⟨⟨items⟩ | ⟨items⟩, i⟩ := y
            · exact ih hy items (by omega) (by omega)
            · rfl

end Escape

/-! ## Groups -/

namespace Reading

/-- The places that are kept with what has been read lie in a text with `size` characters. -/
structure Within (size : Nat) (s : Reading) : Prop where
  /-- Groups that are open begin in the text. -/
  start_le : ∀ frame ∈ s.stack, frame.start ≤ size
  /-- Conditions stand in the text. -/
  place_le : ∀ condition ∈ s.conditions, condition.2 ≤ size

variable {s : Reading} {start : Nat}

theorem Within.push (hs : s.Within size) (piece : Piece) : (s.push piece).Within size :=
  ⟨hs.start_le, hs.place_le⟩

theorem Within.enter (hs : s.Within size) (hstart : start ≤ size) (bracket : Bracket)
    (verbose : Bool) : (s.enter start bracket verbose).Within size :=
  ⟨List.forall_mem_cons.mpr ⟨hstart, hs.start_le⟩, hs.place_le⟩

theorem Within.enterCapture (hs : s.Within size) (hstart : start ≤ size) :
    (s.enterCapture start).Within size :=
  ⟨(hs.enter hstart (.capture s.groups.length) s.verbose).start_le, hs.place_le⟩

theorem Within.leave (hs : s.Within size) : s.leave.Within size := by
  unfold Reading.leave
  split
  · exact hs
  · next frame stack hstack =>
    exact ⟨fun f hf ↦ hs.start_le f (hstack ▸ List.mem_cons_of_mem _ hf), hs.place_le⟩

/-! ## References -/

theorem ensures_checkBehind (h : input.Within size rest) (group : Nat) :
    Ensures size (fun _ ↦ True) (s.checkBehind group input) := by
  unfold checkBehind
  split
  · exact .ok trivial
  · split_ifs
    · exact h.fail _ _
    · exact h.fail _ _
    · exact .ok trivial

theorem ensures_refer (hs : s.Within size) (h : input.Within size rest) (group back : Nat) :
    Ensures size (Within size) (s.refer group back input) := by
  unfold refer
  dsimp only
  split
  · exact h.fail _ _
  · exact (ensures_checkBehind h group).bind fun _ _ ↦ .ok (hs.push _)

theorem reads_referenceEscape (hs : s.Within size) (h : input.Within size rest) (d : Char) :
    Reads size rest (Within size) (s.referenceEscape d input) := by
  unfold referenceEscape
  dsimp only
  split
  · refine (reads_octalEscape h d 2).bind ?_
    rintro ⟨code, i⟩ ⟨-, hi⟩
    exact .ok ⟨hs.push _, hi⟩
  · refine (h.takeWhile _ _).bind ?_
    rintro ⟨ds, i⟩ ⟨-, hi⟩
    dsimp only
    split
    · exact (ensures_refer hs hi _ _).bind fun s hs ↦ .ok ⟨hs, hi⟩
    · exact hi.fail _ _

/-! ## Repetitions -/

theorem ensures_readBound? (ds : List Char) : Ensures size (fun _ ↦ True) (readBound? ds) := by
  unfold readBound?
  split_ifs
  · exact .ok trivial
  · exact .error_nowhere
  · exact .error_nowhere
  · exact .ok trivial

theorem ensures_readBounds {here : Nat} (hhere : here ≤ size) (lo hi : List Char) :
    Ensures size (fun _ ↦ True) (readBounds here lo hi) := by
  refine (ensures_readBound? lo).bind fun least _ ↦ ?_
  refine (ensures_readBound? hi).bind fun most _ ↦ ?_
  dsimp only
  split
  · exact .error_at hhere
  · exact .ok trivial

theorem reads_readGreatest (h : input.Within size rest) (lo : List Char) :
    Reads size rest (fun _ ↦ True) (readGreatest lo input) := by
  refine (h.skip? _).bind fun o ho ↦ ?_
  cases o with
  | none => exact .ok ⟨trivial, h⟩
  | some i => exact (ho i rfl).takeWhile _ _

theorem ensures_readBraces? (h : input.Within size rest) :
    Ensures size (fun o ↦ ∀ y ∈ o, y.2.Within size rest) (readBraces? input) := by
  unfold readBraces?
  dsimp only
  split
  · exact .ok fun _ hy ↦ nomatch hy
  refine (h.takeWhile _ _).bind ?_
  rintro ⟨lo, i⟩ ⟨-, hi⟩
  refine (reads_readGreatest hi lo).bind ?_
  rintro ⟨hi, i⟩ ⟨-, hi'⟩
  refine (hi'.skip? _).bind fun o ho ↦ ?_
  cases o with
  | none => exact .ok fun _ hy ↦ nomatch hy
  | some i =>
    refine (ensures_readBounds h.place_le lo hi).bind fun bounds _ ↦ .ok ?_
    rintro _ ⟨⟩
    exact ho i rfl

theorem ensures_lastPiece {here : Nat} (hhere : here ≤ size) (pieces : List Piece) :
    Ensures size (fun _ ↦ True) (lastPiece here pieces) := by
  unfold lastPiece
  split
  · exact .error_at hhere
  · exact .error_at hhere
  · exact .error_at hhere
  · exact .ok trivial
  · exact .ok trivial

theorem reads_readKind (h : input.Within size rest) :
    Reads size rest (fun _ ↦ True) (readKind input) := by
  refine (h.skip? _).bind fun o ho ↦ ?_
  cases o with
  | some i => exact .ok ⟨trivial, ho i rfl⟩
  | none =>
    refine (h.skip? _).bind fun o ho ↦ ?_
    cases o with
    | some i => exact .ok ⟨trivial, ho i rfl⟩
    | none => exact .ok ⟨trivial, h⟩

theorem reads_repeatLast (hs : s.Within size) (h : input.Within size rest) {here : Nat}
    (hhere : here ≤ size) (least : Nat) (most : Option Nat) :
    Reads size rest (Within size) (s.repeatLast here least most input) := by
  refine (ensures_lastPiece hhere s.pieces).bind ?_
  rintro ⟨r, pieces⟩ -
  refine (reads_readKind h).bind ?_
  rintro ⟨kind, i⟩ ⟨-, hi⟩
  exact .ok ⟨⟨hs.start_le, hs.place_le⟩, hi⟩

/-! ## Opening groups -/

theorem ensures_enterNamed (hs : s.Within size) (h : input.Within size rest)
    (hstart : start ≤ size) (cs : List Char) :
    Ensures size (Within size) (s.enterNamed start cs input) := by
  unfold enterNamed
  dsimp only
  split
  · exact h.fail _ _
  · split
    · exact h.fail _ _
    · exact .ok ⟨(hs.enterCapture hstart).start_le, hs.place_le⟩

theorem ensures_referByName (hs : s.Within size) (h : input.Within size rest) (cs : List Char) :
    Ensures size (Within size) (s.referByName cs input) := by
  unfold referByName
  dsimp only
  split
  · exact h.fail _ _
  · split
    · exact h.fail _ _
    · exact ensures_refer hs h _ _

theorem ensures_readCondition (hs : s.Within size) (h : input.Within size rest) (cs : List Char) :
    Ensures size (fun y ↦ ∀ condition ∈ y.2, condition.2 ≤ size) (s.readCondition cs input) := by
  unfold readCondition
  dsimp only
  split
  · split
    · exact h.fail _ _
    · exact .ok hs.place_le
  · split
    · exact h.fail _ _
    · split
      · exact h.fail _ _
      · refine .ok fun condition hcondition ↦ ?_
        rcases List.mem_append.mp hcondition with hcondition | hcondition
        · exact hs.place_le condition hcondition
        · obtain rfl := List.mem_singleton.mp hcondition
          exact (Nat.sub_le _ _).trans h.place_le
    · exact h.fail _ _

theorem ensures_enterConditional (hs : s.Within size) (h : input.Within size rest)
    (hstart : start ≤ size) (cs : List Char) :
    Ensures size (Within size) (s.enterConditional start cs input) := by
  refine (ensures_readCondition hs h cs).bind ?_
  rintro ⟨group, conditions⟩ hconditions
  refine (ensures_checkBehind h group).bind fun _ _ ↦ .ok ?_
  exact ⟨(hs.enter hstart (.conditional group) s.verbose).start_le, hconditions⟩

theorem reads_readNamed (hs : s.Within size) (h : input.Within size rest) (hstart : start ≤ size) :
    Reads size rest (Within size) (s.readNamed start input) := by
  refine (h.skip? _).bind fun o ho ↦ ?_
  cases o with
  | some i =>
    refine ((ho i rfl).takeUntil _ _).bind ?_
    rintro ⟨cs, i⟩ ⟨-, hi⟩
    exact (ensures_enterNamed hs hi hstart cs).bind fun s hs ↦ .ok ⟨hs, hi⟩
  | none =>
    refine (h.skip? _).bind fun o ho ↦ ?_
    cases o with
    | some i =>
      refine ((ho i rfl).takeUntil _ _).bind ?_
      rintro ⟨cs, i⟩ ⟨-, hi⟩
      exact (ensures_referByName hs hi cs).bind fun s hs ↦ .ok ⟨hs, hi⟩
    | none =>
      dsimp only
      split
      · exact h.fail _ _
      · exact h.drop.bind fun i hi ↦ hi.fail _ _

theorem reads_enterBehind (hs : s.Within size) (h : input.Within size rest)
    (hstart : start ≤ size) : Reads size rest (Within size) (s.enterBehind start input) := by
  unfold enterBehind
  split
  · exact h.fail _ _
  · refine h.drop.bind fun i hi ↦ ?_
    split
    · exact .ok ⟨hs.enter hstart _ _, hi⟩
    · exact .ok ⟨hs.enter hstart _ _, hi⟩
    · exact hi.fail _ _

/-! ## Flags -/

theorem ensures_turnOn (h : input.Within size rest) (on : List RegexFlag) (flag : RegexFlag) :
    Ensures size (fun _ ↦ True) (turnOn on flag input) := by
  unfold turnOn
  split_ifs
  · exact h.fail _ _
  · exact h.fail _ _
  · exact .ok trivial

theorem ensures_turnOff (h : input.Within size rest) (off : List RegexFlag) (flag : RegexFlag) :
    Ensures size (fun _ ↦ True) (turnOff off flag input) := by
  unfold turnOff
  split_ifs
  · exact h.fail _ _
  · exact .ok trivial

theorem reads_readFlags {stops : List Char} {missing : String}
    {turn : List RegexFlag → RegexFlag → Input → Except ReadError (List RegexFlag)}
    (hturn : ∀ {input : Input}, input.Within size rest → ∀ flags flag,
      Ensures size (fun _ ↦ True) (turn flags flag input))
    (h : input.Within size rest) (flags : List RegexFlag) {tokens : List Token}
    (htokens : tokens <:+ input.rest) :
    Ensures size (fun y ↦ y.2.2.Within size rest)
      (readFlags stops missing turn input flags tokens) := by
  induction tokens generalizing input flags with
  | nil =>
    have hend : ({ input with rest := [] } : Input).Within size rest :=
      ⟨h.size_eq, List.nil_suffix, fun t ht ↦ absurd ht List.not_mem_nil⟩
    exact hend.fail _ _
  | cons token tokens ih =>
    unfold readFlags
    have hsuffix : tokens <:+ input.rest := (List.suffix_cons token tokens).trans htokens
    refine (h.move_self hsuffix).bind fun i ⟨hrest, hi⟩ ↦ ?_
    have hi : i.Within size rest := hi.trans (hsuffix.trans h.suffix)
    split
    · exact .ok hi
    · exact (hturn hi _ _).bind fun flags _ ↦ ih hi flags (hrest ▸ List.suffix_rfl)
    · exact hi.fail _ _

theorem reads_readFlagsOff (hs : s.Within size) (h : input.Within size rest)
    (hstart : start ≤ size) (on : List RegexFlag) :
    Reads size rest (Within size) (s.readFlagsOff start on input) := by
  unfold readFlagsOff
  split
  · exact h.fail _ _
  · refine h.drop.bind fun i hi ↦ ?_
    split
    · exact hi.fail _ _
    · refine (ensures_turnOff hi _ _).bind fun off _ ↦ ?_
      refine (reads_readFlags ensures_turnOff hi off List.suffix_rfl).bind ?_
      rintro ⟨stop, off, i⟩ hi
      dsimp only at hi ⊢
      split
      · exact hi.fail _ _
      · split
        · exact hi.fail _ _
        · exact .ok ⟨hs.enter hstart _ _, hi⟩

theorem reads_readFlagsOn (hs : s.Within size) (h : input.Within size rest)
    (hstart : start ≤ size) (flag : RegexFlag) :
    Reads size rest (Within size) (s.readFlagsOn start flag input) := by
  refine (ensures_turnOn h _ _).bind fun on _ ↦ ?_
  refine (reads_readFlags ensures_turnOn h on List.suffix_rfl).bind ?_
  rintro ⟨stop, on, i⟩ hi
  dsimp only at hi ⊢
  split
  · split
    · exact .ok ⟨⟨hs.start_le, hs.place_le⟩, hi⟩
    · exact .error_at hstart
  · split
    · exact hi.fail _ _
    · split
      · exact reads_readFlagsOff hs hi hstart on
      · exact .ok ⟨hs.enter hstart _ _, hi⟩

/-! ## Steps -/

theorem ensures_skipComment (h : input.Within size rest) (hstart : start ≤ size) :
    Ensures size (Input.Within size rest) (skipComment start input) := by
  unfold skipComment
  have hdrop := List.dropWhile_suffix (l := input.rest) (·.plain? != some ')')
  split
  · exact (h.move List.nil_suffix).bind fun _ _ ↦ .error_at hstart
  · next token tokens heq =>
    rw [heq] at hdrop
    exact h.move ((List.suffix_cons token tokens).trans hdrop)

theorem reads_readOpening (hs : s.Within size) (h : input.Within size rest)
    (hstart : start ≤ size) : Reads size rest (Within size) (s.readOpening start input) := by
  refine (h.skip? _).bind fun o ho ↦ ?_
  cases o with
  | none => exact .ok ⟨hs.enterCapture hstart, h⟩
  | some i =>
    have hi := ho i rfl
    dsimp only
    split
    · exact hi.fail _ _
    · refine hi.drop.bind fun i hi ↦ ?_
      split
      · exact reads_readNamed hs hi hstart
      · exact .ok ⟨hs.enter hstart _ _, hi⟩
      · exact (ensures_skipComment hi hstart).bind fun i hi ↦ .ok ⟨hs, hi⟩
      · exact .ok ⟨hs.enter hstart _ _, hi⟩
      · exact .ok ⟨hs.enter hstart _ _, hi⟩
      · exact reads_enterBehind hs hi hstart
      · refine (hi.takeUntil _ _).bind ?_
        rintro ⟨cs, i⟩ ⟨-, hi⟩
        exact (ensures_enterConditional hs hi hstart cs).bind fun s hs ↦ .ok ⟨hs, hi⟩
      · exact .ok ⟨hs.enter hstart _ _, hi⟩
      · exact reads_readFlagsOff hs hi hstart []
      · exact reads_readFlagsOn hs hi hstart _
      · exact hi.fail _ _

variable (characters : CharacterNames)

theorem reads_readEscape (hs : s.Within size) (h : input.Within size rest) (c : Char) :
    Reads size rest (Within size) (s.readEscape characters c input) := by
  unfold readEscape
  split
  · exact .ok ⟨hs.push _, h⟩
  · exact .ok ⟨hs.push _, h⟩
  · dsimp only
    split_ifs
    · exact (reads_octalEscape h c 2).map fun _ hy ↦ ⟨hs.push _, hy.2⟩
    · exact reads_referenceEscape hs h c
    · exact (reads_characterEscape characters h c).map fun _ hy ↦ ⟨hs.push _, hy.2⟩

theorem reads_readSet (hs : s.Within size) (h : input.Within size rest) (hstart : start ≤ size) :
    Reads size rest (Within size) (s.readSet characters start input) := by
  refine (h.skip? _).bind fun negation hnegation ↦ ?_
  have hi : (negation.getD input).Within size rest := by
    cases negation with
    | none => exact h
    | some i => exact hnegation i rfl
  refine (reads_readClass characters hi hstart _ _).bind ?_
  rintro ⟨items, i⟩ ⟨-, hi⟩
  exact .ok ⟨hs.push _, hi⟩

theorem reads_readCharacter (hs : s.Within size) (h : input.Within size rest) {here : Nat}
    (hhere : here ≤ size) (c : Char) :
    Reads size rest (Within size) (s.readCharacter characters here c input) := by
  unfold readCharacter
  dsimp only
  split
  · exact .ok ⟨hs.push _, h⟩
  · exact .ok ⟨hs.push _, h⟩
  · exact .ok ⟨hs.push _, h⟩
  · exact reads_readSet characters hs h hhere
  · exact reads_readOpening hs h hhere
  · exact .ok ⟨⟨hs.start_le, hs.place_le⟩, h⟩
  · exact .ok ⟨hs.leave, h⟩
  · exact reads_repeatLast hs h hhere 0 none
  · exact reads_repeatLast hs h hhere 1 none
  · exact reads_repeatLast hs h hhere 0 (some 1)
  · refine (ensures_readBraces? h).bind fun o ho ↦ ?_
    cases o with
    | none => exact .ok ⟨hs.push _, h⟩
    | some y =>
      obtain ⟨⟨least, most⟩, i⟩ := y
      exact reads_repeatLast hs (ho _ rfl) hhere least most
  · exact .ok ⟨hs.push _, h⟩

/-- **A step uses up the token with which it begins.** -/
theorem reads_step (hs : s.Within size) {token : Token}
    (h : input.Within size (token :: rest)) (hrest : input.rest = token :: rest) :
    Reads size rest (Within size) (s.step characters token input) := by
  have htoken : token.offset ≤ size := h.offset_le token (hrest ▸ List.mem_cons_self)
  unfold step
  dsimp only
  split
  · exact .error_at htoken
  refine (h.drop_cons hrest).bind fun i hi ↦ ?_
  split
  · exact reads_readEscape characters hs hi token.char
  · split_ifs
    · exact .ok ⟨hs, hi⟩
    · have hsuffix := (List.tail_suffix _).trans
        (List.dropWhile_suffix (l := i.rest) (·.plain? != some '\n'))
      exact (hi.move hsuffix).bind fun i hi ↦ .ok ⟨hs, hi⟩
    · exact reads_readCharacter characters hs hi htoken _

/-! ## The whole expression -/

/-- **As many steps as there are tokens are enough.**  More of them make no difference. -/
theorem readOn_eq_readOn (hs : s.Within size) (h : input.Within size rest) {n m : Nat}
    (hn : input.rest.length ≤ n) (hm : input.rest.length ≤ m) :
    readOn characters n s input = readOn characters m s input := by
  induction n generalizing m s input rest with
  | zero =>
    have hempty : input.rest = [] := List.eq_nil_of_length_eq_zero (Nat.le_zero.mp hn)
    cases m with
    | zero => rfl
    | succ m => rw [readOn, readOn, hempty]
  | succ n ih =>
    cases hrest : input.rest with
    | nil =>
      cases m with
      | zero => rw [readOn, readOn, hrest]
      | succ m => rw [readOn, readOn, hrest]
    | cons token tokens =>
      rw [hrest] at hn hm
      cases m with
      | zero => exact absurd hm (Nat.not_succ_le_zero _)
      | succ m =>
        have h' : input.Within size (token :: tokens) := hrest ▸ h.self
        have hstep := reads_step characters hs h' hrest
        rw [readOn, readOn, hrest]
        dsimp only
        split
        · rfl
        · cases hread : s.step characters token input with
          | error e => rfl
          | ok y =>
            obtain ⟨hs', hi⟩ := hstep.1 y hread
            have hlength := hi.suffix.length_le
            simp only [List.length_cons] at hn hm
            exact ih hs' hi (by omega) (by omega)

theorem reads_readOn (hs : s.Within size) (h : input.Within size rest) (n : Nat) :
    Reads size rest (Within size) (readOn characters n s input) := by
  induction n generalizing s input with
  | zero => exact .ok ⟨hs, h⟩
  | succ n ih =>
    unfold readOn
    split
    · exact .ok ⟨hs, h⟩
    · next token tokens hrest =>
      split
      · exact .ok ⟨hs, h⟩
      · have h' : input.Within size (token :: tokens) := hrest ▸ h.self
        have hsuffix : tokens <:+ rest :=
          (List.suffix_cons token tokens).trans (hrest ▸ h.suffix)
        refine (reads_step characters hs h' hrest).bind ?_
        rintro ⟨s, i⟩ ⟨hs, hi⟩
        exact ih hs (hi.trans hsuffix)

end Reading

theorem offset_le_of_mem_tokenize {offset : Nat} {cs : List Char} :
    ∀ t ∈ tokenize offset cs, t.offset ≤ offset + cs.length := by
  fun_induction tokenize offset cs with
  | case1 offset c cs ih =>
    refine List.forall_mem_cons.mpr ⟨Nat.le_add_right _ _, fun t ht ↦ (ih t ht).trans ?_⟩
    simp only [List.length_cons]
    omega
  | case2 => exact fun t ht ↦ absurd ht List.not_mem_nil
  | case3 => exact fun t ht ↦ absurd ht List.not_mem_nil
  | case4 offset c cs _ _ ih =>
    refine List.forall_mem_cons.mpr ⟨Nat.le_add_right _ _, fun t ht ↦ (ih t ht).trans ?_⟩
    simp only [List.length_cons]
    omega

theorem ensures_ofText (cs : List Char) :
    Ensures cs.length (fun i ↦ i.Within cs.length i.rest) (Input.ofText cs) := by
  have hwhole : (⟨cs.length, dangles cs, tokenize 0 cs⟩ : Input).Within cs.length (tokenize 0 cs) :=
    ⟨rfl, List.suffix_rfl, fun t ht ↦ by simpa using offset_le_of_mem_tokenize t ht⟩
  exact (hwhole.move_self List.suffix_rfl).imp fun i hi ↦ hi.1 ▸ hi.2

theorem Reading.ensures_finish {s : Reading} (hs : s.Within size) (h : input.Within size rest) :
    Ensures size (fun _ ↦ True) (s.finish input) := by
  unfold finish
  split
  · next frame stack hstack => exact .error_at (hs.start_le frame (hstack ▸ List.mem_cons_self))
  · split
    · exact .error_nowhere
    split
    · exact h.fail _ _
    split
    · next group place hfind => exact .error_at (hs.place_le _ (List.mem_of_find?_eq_some hfind))
    split
    · exact .error_nowhere
    · exact .ok trivial

theorem ensures_read (characters : CharacterNames) (pattern : String) :
    Ensures pattern.toList.length (fun _ ↦ True) (read characters pattern) := by
  refine (ensures_ofText pattern.toList).bind fun i hi ↦ ?_
  have hnothing : ({} : Reading).Within pattern.toList.length :=
    ⟨fun _ h ↦ absurd h List.not_mem_nil, fun _ h ↦ absurd h List.not_mem_nil⟩
  refine (Reading.reads_readOn characters hnothing hi _).bind ?_
  rintro ⟨s, i⟩ ⟨hs, hi⟩
  exact Reading.ensures_finish hs hi

/-- **An error names a place in the expression**, if it names one. -/
theorem position_le_of_read {characters : CharacterNames} {pattern : String} {e : ReadError}
    {n : Nat} (h : read characters pattern = .error e) (hn : e.position = some n) :
    n ≤ pattern.toList.length :=
  (ensures_read characters pattern).2 e h n hn

end HardcodedText.Regex
