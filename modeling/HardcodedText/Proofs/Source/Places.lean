import HardcodedText.Proofs.Source.WellFormed

/-!
# Places that are told apart by their offsets

`Placed doc Q ps` says of a list of places that they belong to different offsets, all of which
satisfy `Q`.  Such lists are put together from parts whose offsets are kept apart by `Q`; for the
children of a well-formed tree, their ranges do that (`Placed.flatMap`).  If `Q` admits only offsets
between characters, then no place is listed twice (`Placed.nodup`).
-/

namespace HardcodedText

/-- The places `ps` belong to different offsets, and `Q` holds for these. -/
def Placed (doc : Document) (Q : Nat → Prop) (ps : List Position) : Prop :=
  ∃ bs : List Nat, ps = bs.map doc.position ∧ bs.Nodup ∧ ∀ b ∈ bs, Q b

namespace Placed

variable {doc : Document} {Q Q' : Nat → Prop} {ps qs : List Position}

theorem nil : Placed doc Q [] :=
  ⟨[], rfl, .nil, fun _ hb ↦ by cases hb⟩

theorem singleton {b : Nat} (hb : Q b) : Placed doc Q [doc.position b] :=
  ⟨[b], rfl, List.pairwise_singleton _ b, fun _ ha ↦ List.mem_singleton.mp ha ▸ hb⟩

theorem imp (h : Placed doc Q ps) (hQ : ∀ b, Q b → Q' b) : Placed doc Q' ps := by
  obtain ⟨bs, hps, hbs, hq⟩ := h
  exact ⟨bs, hps, hbs, fun b hb ↦ hQ b (hq b hb)⟩

theorem append (h : Placed doc Q ps) (h' : Placed doc Q' qs)
    (hne : ∀ a b, Q a → Q' b → a ≠ b) : Placed doc (fun b ↦ Q b ∨ Q' b) (ps ++ qs) := by
  obtain ⟨as, rfl, has, hQ⟩ := h
  obtain ⟨bs, rfl, hbs, hQ'⟩ := h'
  refine ⟨as ++ bs, List.map_append.symm, ?_, ?_⟩
  · exact List.nodup_append.mpr ⟨has, hbs, fun a ha b hb ↦ hne a b (hQ a ha) (hQ' b hb)⟩
  · intro b hb
    rcases List.mem_append.mp hb with hb | hb
    · exact .inl (hQ b hb)
    · exact .inr (hQ' b hb)

/-- Trees that are in order and do not overlap tell the offsets in them apart. -/
theorem flatMap {cs : List Char} {ts : List Tree} {R : Tree → Nat → Prop}
    {f : Tree → List Position} (hts : ts.Pairwise fun a b ↦ a.span.stop ≤ b.span.start)
    (hR : ∀ t b, R t b → t.Covers cs b) (hf : ∀ t ∈ ts, Placed doc (R t) (f t)) :
    Placed doc (fun b ↦ ∃ t ∈ ts, R t b) (ts.flatMap f) := by
  induction ts with
  | nil => exact nil
  | cons t ts ih =>
    obtain ⟨hlater, hts⟩ := List.pairwise_cons.mp hts
    have hhead := hf t List.mem_cons_self
    have htail := ih hts fun u hu ↦ hf u (List.mem_cons_of_mem _ hu)
    rw [List.flatMap_cons]
    refine (hhead.append htail ?_).imp ?_
    · rintro a b ha ⟨u, hu, hb⟩ rfl
      have hstop := (hR t a ha).lt_stop
      have hstart := (hR u a hb).start_le
      have hle := hlater u hu
      omega
    · rintro b (hb | ⟨u, hu, hb⟩)
      · exact ⟨t, List.mem_cons_self, hb⟩
      · exact ⟨u, List.mem_cons_of_mem _ hu, hb⟩

/-- What different children of a tree show stands apart. -/
theorem flatMap_shows {cs : List Char} {skip : List Span} {t : Tree} {ts : List Tree}
    {f : Tree → List Position} (h : t.WellFormed cs) (hts : ts.Sublist t.children)
    (hf : ∀ c ∈ ts, Placed doc (c.Shows cs skip) (f c)) :
    Placed doc (fun b ↦ ∃ c ∈ ts, c.Shows cs skip b) (ts.flatMap f) :=
  flatMap (R := fun c ↦ c.Shows cs skip) (h.laidOut.ordered.sublist hts)
    (fun _ _ hb ↦ hb.toCovers) hf

/-- Different offsets between characters have different places. -/
theorem nodup {path text : String} {root : Tree} (h : Placed (.ofText path text root) Q ps)
    (hQ : ∀ b, Q b → IsBoundary text.toList b) : ps.Nodup := by
  obtain ⟨bs, rfl, hbs, hq⟩ := h
  refine List.pairwise_map.mpr (hbs.imp_of_mem ?_)
  intro a b ha hb hne heq
  exact hne ((hQ a (hq a ha)).eq_of_positionIn_eq (hQ b (hq b hb)) heq)

end Placed

end HardcodedText
