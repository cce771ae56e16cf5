import Rehome.Proofs.Label.Scheme

/-! # Where the texts of a value are

The positions of the texts that a scheme tells of. Rewording a value replaces what is at these positions and
nothing else (`at?_reword`, `substitutes_reword`), and the texts are listed with their positions
(`mem_spots_of_at?`, `at?_of_mem_spots`), each of them once (`nodup_spots`). -/

namespace Rehome.Label.Scheme

variable {f : String → String} {s rest : Scheme} {key : String} {j : Json}

/-! ## Positions of texts

A scheme looks no further into a position than its next step. -/

@[simp] theorem hasText_text_nil : hasText .text [] = true := rfl

@[simp] theorem hasText_text_cons (step : Step) (p : Position) : hasText .text (step :: p) = false := rfl

@[simp] theorem hasText_none (p : Position) : hasText .none p = false := by
  cases p <;> rfl

@[simp] theorem hasText_member_nil : hasText (.member key s rest) [] = rest.hasText [] := rfl

@[simp] theorem hasText_member_item (n : Nat) (p : Position) :
    hasText (.member key s rest) (.item n :: p) = rest.hasText (.item n :: p) := rfl

@[simp] theorem hasText_member_member (k : String) (p : Position) : hasText (.member key s rest) (.member k :: p) =
    (k == key && s.hasText p || rest.hasText (.member k :: p)) := rfl

@[simp] theorem hasText_members_nil (s : String → Scheme) : hasText (.members s) [] = false := rfl

@[simp] theorem hasText_members_member (s : String → Scheme) (k : String) (p : Position) :
    hasText (.members s) (.member k :: p) = (s k).hasText p := rfl

@[simp] theorem hasText_members_item (s : String → Scheme) (n : Nat) (p : Position) :
    hasText (.members s) (.item n :: p) = false := rfl

@[simp] theorem hasText_items_nil : hasText (.items s) [] = false := rfl

@[simp] theorem hasText_items_member (k : String) (p : Position) :
    hasText (.items s) (.member k :: p) = false := rfl

@[simp] theorem hasText_items_item (n : Nat) (p : Position) :
    hasText (.items s) (.item n :: p) = s.hasText p := rfl

theorem hasText_of_ignores (h : s.Ignores key) (p : Position) : s.hasText (.member key :: p) = false := by
  induction s with
  | member k s rest _ ih => simp [h.1, ih h.2]
  | members s _ => simp [show s key = .none from h]
  | _ => rfl

theorem hasText_member (key : String) (s rest : Scheme) (p : Position) :
    hasText (.member key s rest) p = (hasText (.member key s .none) p || rest.hasText p) := by
  match p with
  | [] => rfl
  | .member k :: q => simp
  | .item n :: q => rfl

/-- No text comes in a member and again elsewhere. -/
theorem not_hasText_of_member (h : rest.Ignores key) {p : Position}
    (hp : hasText (.member key s .none) p) : rest.hasText p = false := by
  match p, hp with
  | .member k :: q, hp =>
    have hk : k = key ∧ s.hasText q := by simpa using hp
    rw [hk.1]
    exact hasText_of_ignores h q

theorem hasText_text_iff {p : Position} : hasText .text p ↔ p = [] := by
  cases p <;> simp

theorem hasText_member_iff {p : Position} :
    hasText (.member key s rest) p ↔ (∃ q, p = .member key :: q ∧ s.hasText q) ∨ rest.hasText p := by
  rw [hasText_member, Bool.or_eq_true]
  refine or_congr_left ?_
  match p with
  | [] => simp
  | .item n :: q => simp
  | .member k :: q =>
    simp only [hasText_member_member, hasText_none, Bool.or_false, Bool.and_eq_true, beq_iff_eq, List.cons.injEq, Step.member.injEq]
    constructor
    · rintro ⟨rfl, hq⟩
      exact ⟨q, ⟨rfl, rfl⟩, hq⟩
    · rintro ⟨q, ⟨rfl, rfl⟩, hq⟩
      exact ⟨rfl, hq⟩

theorem hasText_members_iff {s : String → Scheme} {p : Position} :
    hasText (.members s) p ↔ ∃ k q, p = .member k :: q ∧ (s k).hasText q := by
  match p with
  | [] => simp
  | .item n :: q => simp
  | .member k :: q => simp

theorem hasText_items_iff {p : Position} : hasText (.items s) p ↔ ∃ n q, p = .item n :: q ∧ s.hasText q := by
  match p with
  | [] => simp
  | .item n :: q => simp
  | .member k :: q => simp

/-! ## What is at these positions -/

theorem step?_reword_members (s : String → Scheme) (key : String) (j : Json) :
    (reword f (.members s) j).step? (.member key) = (j.step? (.member key)).map ((s key).reword f) := by
  cases j with
  | obj ms =>
    rw [reword_members_obj]
    simp only [Json.step?, Json.member?]
    induction ms with
    | nil => rfl
    | cons e ms ih =>
      rw [List.map_cons, Assoc.lookup_cons, Assoc.lookup_cons]
      split
      · next hk => rw [hk, Option.map_some]
      · exact ih
  | _ => rfl

theorem step?_reword_items (n : Nat) (j : Json) :
    (reword f (.items s) j).step? (.item n) = (j.step? (.item n)).map (s.reword f) := by
  cases j with
  | arr js =>
    rw [reword_items_arr]
    exact List.getElem?_map
  | _ => rfl

/-- After rewording there is the new text where a text was, and everywhere else what there was. -/
def ChangesTexts (f : String → String) (s : Scheme) : Prop :=
  ∀ (j : Json) (p : Position), ((s.reword f j).at? p).map Json.shape =
    (j.at? p).map fun v => if s.hasText p then v.shape.mapStr f else v.shape

theorem changesTexts_text : ChangesTexts f .text := by
  intro j p
  rw [reword_text]
  cases p with
  | nil => cases j <;> rfl
  | cons step p =>
    cases j with
    | str t => rw [Json.at?_cons, Json.at?_cons, Json.step?_of_isLeaf rfl, Json.step?_of_isLeaf rfl]; rfl
    | _ => rfl

/-- The texts in one member are changed. -/
theorem ChangesTexts.only (hs : ChangesTexts f s) (key : String) : ChangesTexts f (.member key s .none) := by
  intro j p
  rw [reword_member, reword_none]
  cases hv : j.member? key with
  | none =>
    match p with
    | [] => rfl
    | .item n :: q => rfl
    | .member k :: q =>
      by_cases hk : k = key
      · subst hk
        simp [Json.at?_cons, Json.step?, hv]
      · simp [hk]
  | some v =>
    rw [Json.at?_setMember hv]
    match p with
    | [] => rfl
    | .item n :: q => rfl
    | .member k :: q =>
      by_cases hk : k = key
      · subst hk
        simp only [if_true, hs v q, Json.at?_cons, Json.step?, hv, Option.bind_some]
        simp
      · simp [hk]

/-- The texts in one member are changed, and then those elsewhere. -/
theorem ChangesTexts.member (hs : ChangesTexts f s) (hrest : ChangesTexts f rest) (hignores : rest.Ignores key) :
    ChangesTexts f (.member key s rest) := by
  intro j p
  have hboth : reword f (.member key s rest) j = rest.reword f (reword f (.member key s .none) j) := by
    rw [reword_member, reword_member, reword_none]
  have hshape : ((rest.reword f (reword f (.member key s .none) j)).at? p).map Json.shape =
      (((reword f (.member key s .none) j).at? p).map Json.shape).map fun v =>
        if rest.hasText p then v.mapStr f else v := by
    rw [hrest, Option.map_map]
    rfl
  rw [hboth, hshape, hs.only key j p, Option.map_map]
  refine congrArg (Option.map · (j.at? p)) (funext fun v => ?_)
  have hpos := hasText_member key s rest p
  by_cases hp : hasText (.member key s .none) p
  · simp [hpos, hp, not_hasText_of_member hignores hp]
  · simp [hpos, hp]

theorem changesTexts_members {s : String → Scheme} (hs : ∀ k, ChangesTexts f (s k)) :
    ChangesTexts f (.members s) := by
  intro j p
  match p with
  | [] =>
    cases j with
    | obj ms =>
      rw [reword_members_obj]
      refine congrArg some (Json.shape_obj ?_)
      simp
    | _ => rfl
  | .member k :: q =>
    rw [Json.at?_cons, Json.at?_cons, step?_reword_members]
    cases j.step? (.member k) with
    | none => rfl
    | some v => exact hs k v q
  | .item n :: q => cases j <;> rfl

theorem ChangesTexts.items (hs : ChangesTexts f s) : ChangesTexts f (.items s) := by
  intro j p
  match p with
  | [] =>
    cases j with
    | arr js =>
      rw [reword_items_arr]
      exact congrArg some (Json.shape_arr (List.length_map _))
    | _ => rfl
  | .item n :: q =>
    rw [Json.at?_cons, Json.at?_cons, step?_reword_items]
    cases j.step? (.item n) with
    | none => rfl
    | some v => exact hs v q
  | .member k :: q => cases j <;> rfl

/-- Rewording by a scheme that tells of no text twice changes the texts that it tells of, and nothing else. -/
theorem at?_reword (hs : s.Apart) : ChangesTexts f s := by
  induction s with
  | text => exact changesTexts_text
  | none =>
    intro j p
    simp
  | member key s rest ih ihrest => exact (ih hs.1).member (ihrest hs.2.1) hs.2.2
  | members s ih => exact changesTexts_members fun k => ih k (hs k)
  | items s ih => exact (ih hs).items

/-- Rewording is a substitution at the positions of texts, but for some that stay as they are. -/
theorem substitutes_reword (hs : s.Apart) {P : String → Prop} (hP : ∀ t, ¬P t → f t = t) (j : Json) :
    Substitutes (fun (_ : Unit) p => s.hasText p ∧ ∃ t, j.at? p = some (.str t) ∧ P t)
      (fun _ v v' => ∃ t, P t ∧ v = .str t ∧ v' = .str (f t)) j (s.reword f j) where
  slot {_ p v} hslot hv := by
    obtain ⟨hp, t, ht, hPt⟩ := hslot
    obtain rfl := Option.some.inj (hv.symm.trans ht)
    have hat := at?_reword (f := f) hs j p
    rw [ht, Option.map_some, if_pos hp] at hat
    obtain ⟨v', hv', hshape⟩ := Option.map_eq_some_iff.1 hat
    exact ⟨v', hv', t, hPt, rfl, Json.shape_eq_str hshape⟩
  rest {p} hnot := by
    rw [at?_reword hs]
    refine Option.map_congr fun v hv => ?_
    split
    · next hp =>
      cases v with
      | str t => exact congrArg Json.str (hP t fun hPt => hnot () ⟨hp, t, hv, hPt⟩)
      | _ => rfl
    · rfl

/-! ## Lists of texts -/

theorem mem_under {step : Step} {spots : List (Position × String)} {p : Position} {t : String} :
    (p, t) ∈ under step spots ↔ ∃ q, (q, t) ∈ spots ∧ p = step :: q := by
  simp only [under, List.mem_map, Prod.exists, Prod.map_apply, id_eq, Prod.mk.injEq]
  constructor
  · rintro ⟨q, t, h, rfl, rfl⟩
    exact ⟨q, h, rfl⟩
  · rintro ⟨q, h, rfl⟩
    exact ⟨q, t, h, rfl, rfl⟩

/-- A text is listed with its position. -/
theorem mem_spots_of_at? {p : Position} {t : String} (hp : s.hasText p) (ht : j.at? p = some (.str t)) :
    (p, t) ∈ s.spots j := by
  induction s generalizing j p with
  | text =>
    cases p with
    | nil =>
      obtain rfl := Option.some.inj ht
      exact List.mem_singleton_self _
    | cons step p => cases hp
  | none => cases p <;> cases hp
  | member key s rest ih ihrest =>
    rw [hasText_member, Bool.or_eq_true] at hp
    rcases hp with hp | hp
    · match p, hp with
      | .member k :: q, hp =>
        have hk : k = key ∧ s.hasText q := by simpa using hp
        obtain ⟨rfl, hq⟩ := hk
        obtain ⟨v, hv, ht⟩ := Option.bind_eq_some_iff.1 ht
        refine List.mem_append_left _ ?_
        rw [show j.member? k = some v from hv]
        exact mem_under.2 ⟨q, ih hq ht, rfl⟩
    · exact List.mem_append_right _ (ihrest hp ht)
  | members s ih =>
    match p, hp with
    | .member k :: q, hp =>
      obtain ⟨v, hv, hat⟩ := Option.bind_eq_some_iff.1 ht
      cases j with
      | obj ms =>
        exact List.mem_flatMap.2 ⟨(k, v), Assoc.mem_of_lookup hv, mem_under.2 ⟨q, ih k hp hat, rfl⟩⟩
      | _ => cases hv
  | items s ih =>
    match p, hp with
    | .item n :: q, hp =>
      obtain ⟨v, hv, hat⟩ := Option.bind_eq_some_iff.1 ht
      cases j with
      | arr js =>
        have hmem : (v, n) ∈ js.zipIdx := List.mem_zipIdx_iff_getElem?.2 hv
        exact List.mem_flatMap.2 ⟨(v, n), hmem, mem_under.2 ⟨q, ih hp hat, rfl⟩⟩
      | _ => cases hv

/-- What is listed is a text that is there. -/
theorem at?_of_mem_spots (hj : j.WellFormed) {p : Position} {t : String} (h : (p, t) ∈ s.spots j) :
    s.hasText p ∧ j.at? p = some (.str t) := by
  induction s generalizing j p with
  | text =>
    cases j with
    | str u =>
      obtain ⟨rfl, rfl⟩ := Prod.mk.inj (List.mem_singleton.1 h)
      exact ⟨rfl, rfl⟩
    | _ => cases h
  | none => cases h
  | member key s rest ih ihrest =>
    rw [hasText_member, Bool.or_eq_true]
    rcases List.mem_append.1 h with h | h
    · cases hv : j.member? key with
      | none =>
        rw [hv] at h
        cases h
      | some v =>
        rw [hv] at h
        obtain ⟨q, hq, rfl⟩ := mem_under.1 h
        obtain ⟨htext, hat⟩ := ih (hj.member? hv) hq
        refine ⟨.inl (by simpa using htext), ?_⟩
        rw [Json.at?_cons, Json.step?, hv]
        exact hat
    · obtain ⟨htext, hat⟩ := ihrest hj h
      exact ⟨.inr htext, hat⟩
  | members s ih =>
    cases j with
    | obj ms =>
      obtain ⟨⟨k, v⟩, he, h⟩ := List.mem_flatMap.1 h
      obtain ⟨q, hq, rfl⟩ := mem_under.1 h
      have hv : (Json.obj ms).step? (.member k) = some v := (Assoc.lookup_eq_some_iff_mem hj.1).2 he
      obtain ⟨htext, hat⟩ := ih k (hj.step? hv) hq
      refine ⟨htext, ?_⟩
      rw [Json.at?_cons, hv]
      exact hat
    | _ => cases h
  | items s ih =>
    cases j with
    | arr js =>
      obtain ⟨⟨v, n⟩, he, h⟩ := List.mem_flatMap.1 h
      obtain ⟨q, hq, rfl⟩ := mem_under.1 h
      have hv : (Json.arr js).step? (.item n) = some v := List.mem_zipIdx_iff_getElem?.1 he
      obtain ⟨htext, hat⟩ := ih (hj.step? hv) hq
      refine ⟨htext, ?_⟩
      rw [Json.at?_cons, hv]
      exact hat
    | _ => cases h

theorem nodup_under {step : Step} {spots : List (Position × String)} (h : (spots.map Prod.fst).Nodup) :
    ((under step spots).map Prod.fst).Nodup := by
  have hmap : (under step spots).map Prod.fst = (spots.map Prod.fst).map (step :: ·) := by
    simp [under]
  rw [hmap]
  exact h.map fun _ _ heq => (List.cons.inj heq).2

/-- Texts in parts to which different steps lead. -/
theorem nodup_flatMap_under {α : Type} {as : List α} (step : α → Step) {spots : α → List (Position × String)}
    (hdistinct : as.Pairwise fun a b => step a ≠ step b) (h : ∀ a ∈ as, ((spots a).map Prod.fst).Nodup) :
    ((as.flatMap fun a => under (step a) (spots a)).map Prod.fst).Nodup := by
  rw [List.map_flatMap]
  refine List.nodup_flatMap.2 ⟨fun a ha => nodup_under (h a ha), ?_⟩
  refine hdistinct.imp fun {a b} hne p hp hp' => hne ?_
  obtain ⟨⟨q, t⟩, hq, rfl⟩ := List.mem_map.1 hp
  obtain ⟨⟨q', t'⟩, hq', heq⟩ := List.mem_map.1 hp'
  obtain ⟨r, -, rfl⟩ := mem_under.1 hq
  obtain ⟨r', -, rfl⟩ := mem_under.1 hq'
  exact (List.cons.inj heq).1.symm

/-- No position is listed twice. -/
theorem nodup_spots (hs : s.Apart) (hj : j.WellFormed) : ((s.spots j).map Prod.fst).Nodup := by
  induction s generalizing j with
  | text => cases j <;> simp [spots]
  | none => simp [spots]
  | member key s rest ih ihrest =>
    obtain ⟨hs, hrest, hignores⟩ := hs
    rw [spots, List.map_append]
    cases hv : j.member? key with
    | none => exact ihrest hrest hj
    | some v =>
      refine List.nodup_append.2 ⟨nodup_under (ih hs (hj.member? hv)), ihrest hrest hj, ?_⟩
      rintro p hp p' hp' rfl
      obtain ⟨⟨q, t⟩, hq, rfl⟩ := List.mem_map.1 hp
      obtain ⟨r, -, rfl⟩ := mem_under.1 hq
      obtain ⟨⟨q', t'⟩, hq', rfl⟩ := List.mem_map.1 hp'
      have htext := (at?_of_mem_spots hj hq').1
      rw [hasText_of_ignores hignores] at htext
      cases htext
  | members s ih =>
    cases j with
    | obj ms =>
      refine nodup_flatMap_under (fun e : String × Json => .member e.1) ?_ fun e he => ?_
      · exact (List.pairwise_map.1 hj.1).imp fun hne heq => hne (Step.member.inj heq)
      · exact ih e.1 (hs e.1) (hj.member? ((Assoc.lookup_eq_some_iff_mem hj.1).2 he))
    | _ => exact List.nodup_nil
  | items s ih =>
    cases j with
    | arr js =>
      refine nodup_flatMap_under (fun e : Json × Nat => .item e.2) ?_ fun e he => ?_
      · have hdistinct : (js.zipIdx.map Prod.snd).Nodup := by
          rw [List.zipIdx_map_snd]
          exact List.nodup_range'
        exact (List.pairwise_map.1 hdistinct).imp fun hne heq => hne (Step.item.inj heq)
      · exact ih hs (hj.item? (List.mem_zipIdx_iff_getElem?.1 he))
    | _ => exact List.nodup_nil

end Rehome.Label.Scheme
