import Rehome.Proofs.Json.Update

/-! # Values that differ at some sites only

A value may differ from another at certain sites: there the value may be a different one, an entry may have
another key, or an entry may have been added. Everything else is the same, and in the same order
(`DiffersOnly`); without a site the values are equal (`differsOnly_nowhere_iff`). A change of one part of a value
makes a difference at the sites of that part. -/

namespace Rehome

/-- What may be different at a site. -/
inductive Change where
  /-- The value. -/
  | value
  /-- The key of the entry. -/
  | key
  /-- The value, and the entry may not have been there before. -/
  | entry
deriving DecidableEq, Repr

/-- The positions at which there may be a difference, and which. -/
abbrev Sites := Change → Position → Prop

/-- The sites in the part that a step leads to. -/
def Sites.below (sites : Sites) (step : Step) : Sites := fun c p => sites c (step :: p)

/-- `DiffersOnly sites j j'` holds when `j'` is `j` with differences at the sites alone. The parts of the two are
compared by their order, so where an entry has another key its value is still compared with the old one. -/
inductive DiffersOnly : Sites → Json → Json → Prop
  /-- A value at a site may be any other. -/
  | site {sites : Sites} {j j' : Json} {c : Change} : c ≠ .key → sites c [] → DiffersOnly sites j j'
  /-- A value with nothing in it is the same. -/
  | leaf {sites : Sites} {j : Json} : j.isLeaf → DiffersOnly sites j j
  /-- A list has the same length, and its items differ at the sites below them. -/
  | arr {sites : Sites} {items items' : List Json} : items.length = items'.length →
    (∀ n i i', items[n]? = some i → items'[n]? = some i' → DiffersOnly (sites.below (.item n)) i i') →
    DiffersOnly sites (.arr items) (.arr items')
  /-- A map has the same entries in the same order, some with other keys, and further entries behind them. -/
  | obj {sites : Sites} {members members' added : List (String × Json)} : members.length = members'.length →
    (∀ (n : Nat) (e e' : String × Json), members[n]? = some e → members'[n]? = some e' →
      e'.1 = e.1 ∨ sites .key [.member e.1]) →
    (∀ (n : Nat) (e e' : String × Json), members[n]? = some e → members'[n]? = some e' →
      DiffersOnly (sites.below (.member e.1)) e.2 e'.2) →
    (added.map Prod.fst).Nodup →
    (∀ e ∈ added, sites .entry [.member e.1] ∧ e.1 ∉ members.map Prod.fst) →
    DiffersOnly sites (.obj members) (.obj (members' ++ added))

/-! ## Parts in their order -/

namespace Json

variable {j v w : Json}

/-- What holds of a value as soon as it holds of its items and of the values of its entries holds of all. -/
theorem parts_induction {P : Json → Prop} (arr : ∀ items, (∀ i ∈ items, P i) → P (.arr items))
    (obj : ∀ members, (∀ e ∈ members, P e.2) → P (.obj members)) (leaf : ∀ j, j.isLeaf → P j) (j : Json) : P j := by
  induction hsize : sizeOf j using Nat.strong_induction_on generalizing j with
  | _ n ih =>
    subst hsize
    cases j with
    | arr items =>
      refine arr items fun i hi => ih _ ?_ i rfl
      have hlt := List.sizeOf_lt_of_mem hi
      rw [Json.arr.sizeOf_spec]
      omega
    | obj members =>
      refine obj members fun e he => ih _ ?_ e.2 rfl
      have hlt := List.sizeOf_lt_of_mem he
      rw [Prod.mk.sizeOf_spec] at hlt
      rw [Json.obj.sizeOf_spec]
      omega
    | _ => exact leaf _ rfl

theorem forall₂_iff_getElem? {α β : Type} {R : α → β → Prop} {as : List α} {bs : List β} :
    List.Forall₂ R as bs ↔ as.length = bs.length ∧
      ∀ (n : Nat) (a : α) (b : β), as[n]? = some a → bs[n]? = some b → R a b := by
  refine ⟨fun h => ⟨h.length_eq, fun n a b => getElem?_forall₂ h⟩, fun ⟨hlength, h⟩ => ?_⟩
  refine List.forall₂_iff_get.2 ⟨hlength, fun n hn hn' => ?_⟩
  exact h n _ _ (List.getElem?_eq_getElem hn) (List.getElem?_eq_getElem hn')

theorem forall₂_comp {α β γ : Type} {P : α → β → Prop} {Q : β → γ → Prop} {as : List α} {bs : List β}
    {cs : List γ} (h : List.Forall₂ P as bs) (h' : List.Forall₂ Q bs cs) :
    List.Forall₂ (fun a c => ∃ b, P a b ∧ Q b c) as cs := by
  induction h generalizing cs with
  | nil =>
    cases h'
    exact .nil
  | cons hab _ ih =>
    cases h' with
    | cons hbc hbcs => exact .cons ⟨_, hab, hbc⟩ (ih hbcs)

/-- Where keys are distinct, entries with the same keys are related if what the keys lead to is. -/
theorem forall₂_of_lookup {R : String → Json → Json → Prop} {members members' : List (String × Json)}
    (hnodup : (members.map Prod.fst).Nodup) (hkeys : members'.map Prod.fst = members.map Prod.fst)
    (h : ∀ key v v', members.lookup key = some v → members'.lookup key = some v' → R key v v') :
    List.Forall₂ (fun e e' => e'.1 = e.1 ∧ R e.1 e.2 e'.2) members members' := by
  have hlength : members.length = members'.length := by
    simpa using (congrArg List.length hkeys).symm
  refine forall₂_iff_getElem?.2 ⟨hlength, fun n e e' he he' => ?_⟩
  have hkey : e'.1 = e.1 := by
    have hmap := congrArg (fun keys : List String => keys[n]?) hkeys
    simpa [he, he'] using hmap
  refine ⟨hkey, h e.1 e.2 e'.2 ?_ ?_⟩
  · exact (Assoc.lookup_eq_some_iff_mem hnodup).2 (List.mem_of_getElem? he)
  · rw [← hkey]
    exact (Assoc.lookup_eq_some_iff_mem (hkeys ▸ hnodup)).2 (List.mem_of_getElem? he')

end Json

/-! ## Differences -/

namespace DiffersOnly

variable {sites sites' : Sites} {j j₁ j' v w : Json} {key : String}
  {members members' added : List (String × Json)}

/-- The key of an entry is the same or may be another one, and its value differs at the sites below. -/
def Entry (sites : Sites) (e e' : String × Json) : Prop :=
  (e'.1 = e.1 ∨ sites .key [.member e.1]) ∧ DiffersOnly (sites.below (.member e.1)) e.2 e'.2

theorem of_entries (h : List.Forall₂ (Entry sites) members members') (hnodup : (added.map Prod.fst).Nodup)
    (hadded : ∀ e ∈ added, sites .entry [.member e.1] ∧ e.1 ∉ members.map Prod.fst) :
    DiffersOnly sites (.obj members) (.obj (members' ++ added)) := by
  obtain ⟨hlength, hentries⟩ := Json.forall₂_iff_getElem?.1 h
  refine .obj hlength (fun n e e' he he' => ?_) (fun n e e' he he' => ?_) hnodup hadded
  · exact (hentries n e e' he he').1
  · exact (hentries n e e' he he').2

/-- Maps with the same number of entries. -/
theorem of_members (h : List.Forall₂ (Entry sites) members members') :
    DiffersOnly sites (.obj members) (.obj members') := by
  rw [← List.append_nil members']
  exact of_entries h List.nodup_nil fun e he => absurd he List.not_mem_nil

/-- Maps with the same keys, all distinct. -/
theorem of_lookup (hnodup : (members.map Prod.fst).Nodup) (hkeys : members'.map Prod.fst = members.map Prod.fst)
    (h : ∀ key v v', members.lookup key = some v → members'.lookup key = some v' →
      DiffersOnly (sites.below (.member key)) v v') : DiffersOnly sites (.obj members) (.obj members') :=
  of_members ((Json.forall₂_of_lookup hnodup hkeys h).imp fun _ _ he => ⟨.inl he.1, he.2⟩)

/-- Where the value may change there may be any other. -/
theorem value (hsite : sites .value []) : DiffersOnly sites j j' := .site (by decide) hsite

/-- Where an entry may be added there may be any other value. -/
theorem entry (hsite : sites .entry []) : DiffersOnly sites j j' := .site (by decide) hsite

theorem refl (sites : Sites) (j : Json) : DiffersOnly sites j j := by
  induction j using Json.parts_induction generalizing sites with
  | arr items ih =>
    refine .arr rfl fun n i i' hi hi' => ?_
    obtain rfl := Option.some.inj (hi.symm.trans hi')
    exact ih i (List.mem_of_getElem? hi) _
  | obj members ih => exact of_members (List.forall₂_same.2 fun e he => ⟨.inl rfl, ih e he _⟩)
  | leaf j hj => exact .leaf hj

/-- There may be more sites. -/
theorem mono (h : DiffersOnly sites j j') (hsites : ∀ c p, sites c p → sites' c p) : DiffersOnly sites' j j' := by
  induction h generalizing sites' with
  | site hc hsite => exact .site hc (hsites _ _ hsite)
  | leaf hj => exact .leaf hj
  | arr hlength _ ih => exact .arr hlength fun n i i' hi hi' => ih n i i' hi hi' fun c p => hsites c _
  | obj hlength hkeys _ hnodup hadded ih =>
    refine .obj hlength (fun n e e' he he' => ?_) (fun n e e' he he' => ?_) hnodup fun e he => ?_
    · exact (hkeys n e e' he he').imp_right (hsites _ _)
    · exact ih n e e' he he' fun c p => hsites c _
    · exact ⟨hsites _ _ (hadded e he).1, (hadded e he).2⟩

/-- Without a site the values are equal. -/
theorem eq_of_nowhere (h : DiffersOnly sites j j') (hnowhere : ∀ c p, ¬sites c p) : j' = j := by
  induction h with
  | site _ hsite => exact absurd hsite (hnowhere _ _)
  | leaf _ => rfl
  | @arr sites items items' hlength _ ih =>
    have hitems : List.Forall₂ (· = ·) items items' := Json.forall₂_iff_getElem?.2
      ⟨hlength, fun n i i' hi hi' => (ih n i i' hi hi' fun c p => hnowhere c _).symm⟩
    rw [List.forall₂_eq_eq_eq] at hitems
    rw [hitems]
  | @obj sites members members' added hlength hkeys _ _ hadded ih =>
    obtain rfl : added = [] := List.eq_nil_iff_forall_not_mem.2 fun e he => hnowhere _ _ (hadded e he).1
    have hmembers : List.Forall₂ (· = ·) members members' := Json.forall₂_iff_getElem?.2
      ⟨hlength, fun n e e' he he' => Prod.ext ((hkeys n e e' he he').resolve_right (hnowhere _ _)).symm
        (ih n e e' he he' fun c p => hnowhere c _).symm⟩
    rw [List.forall₂_eq_eq_eq] at hmembers
    rw [hmembers, List.append_nil]

end DiffersOnly

theorem differsOnly_nowhere_iff {j j' : Json} : DiffersOnly (fun _ _ => False) j j' ↔ j' = j := by
  refine ⟨fun h => h.eq_of_nowhere fun _ _ => id, ?_⟩
  rintro rfl
  exact .refl _ j'

/-! ## Substitutions -/

namespace Json

variable {j j' : Json}

theorem shape_eq_arr {items : List Json} (h : j'.shape = (arr items).shape) :
    ∃ items', j' = arr items' ∧ items'.length = items.length := by
  cases j' with
  | arr items' => exact ⟨items', rfl, by simpa using congrArg List.length (arr.inj h)⟩
  | _ => cases h

theorem shape_eq_obj {members : List (String × Json)} (h : j'.shape = (obj members).shape) :
    ∃ members', j' = obj members' ∧ members'.map Prod.fst = members.map Prod.fst := by
  cases j' with
  | obj members' =>
    have hkeys := congrArg (List.map Prod.fst) (obj.inj h)
    rw [List.map_map, List.map_map] at hkeys
    exact ⟨members', rfl, hkeys⟩
  | _ => cases h

/-- A value with nothing in it is told by its shape. -/
theorem eq_of_shape (hj : j.isLeaf) (h : j'.shape = j.shape) : j' = j := by
  cases j with
  | arr _ | obj _ => cases hj
  | _ => cases j' <;> first | exact h | cases h

end Json

namespace Substitutes

variable {κ : Type} {slots : κ → Position → Prop} {image : κ → Json → Json → Prop} {j j' v v' : Json}

/-- A substitution is one of each part. -/
theorem below (h : Substitutes slots image j j') {step : Step} (hv : j.step? step = some v)
    (hv' : j'.step? step = some v') : Substitutes (fun k p => slots k (step :: p)) image v v' where
  slot {k p u} hslot hu := by
    obtain ⟨u', hu', himage⟩ := h.slot hslot (by rw [Json.at?_cons, hv]; exact hu)
    rw [Json.at?_cons, hv'] at hu'
    exact ⟨u', hu', himage⟩
  rest {p} hnot := by
    have hrest := h.rest hnot
    rwa [Json.at?_cons, Json.at?_cons, hv, hv'] at hrest

/-- A substitution makes differences at its slots only. -/
theorem differsOnly (hj : j.WellFormed) (h : Substitutes slots image j j') :
    DiffersOnly (fun c p => c = .value ∧ ∃ k, slots k p) j j' := by
  induction j using Json.parts_induction generalizing slots j' with
  | arr items ih =>
    by_cases hslot : ∃ k, slots k []
    · exact .value ⟨rfl, hslot⟩
    obtain ⟨items', rfl, hlength⟩ := Json.shape_eq_arr (Option.some.inj (h.rest (not_exists.1 hslot)))
    refine .arr hlength.symm fun n i i' hi hi' => ?_
    exact ih i (List.mem_of_getElem? hi) (hj.item? hi) (h.below (show (Json.arr items).step? (.item n) = some i from hi) hi')
  | obj members ih =>
    by_cases hslot : ∃ k, slots k []
    · exact .value ⟨rfl, hslot⟩
    obtain ⟨members', rfl, hkeys⟩ := Json.shape_eq_obj (Option.some.inj (h.rest (not_exists.1 hslot)))
    refine .of_lookup hj.1 hkeys fun key v v' hv hv' => ?_
    exact ih (key, v) (Assoc.mem_of_lookup hv) (hj.member? hv) (h.below (show (Json.obj members).step? (.member key) = some v from hv) hv')
  | leaf j hleaf =>
    by_cases hslot : ∃ k, slots k []
    · exact .value ⟨rfl, hslot⟩
    obtain rfl := Json.eq_of_shape hleaf (Option.some.inj (h.rest (not_exists.1 hslot)))
    exact .leaf hleaf

end Substitutes

/-! ## Changes of one part -/

namespace DiffersOnly

variable {ε : Type} {sites : Sites} {j j₁ j' v v' w : Json} {key : String} {f : Json → Except ε Json}
  {members members' added : List (String × Json)}

theorem setItem {n : Nat} (hv : j.item? n = some v) (h : DiffersOnly (sites.below (.item n)) v v') :
    DiffersOnly sites j (j.setItem n v') := by
  cases j with
  | arr items =>
    refine .arr (List.length_set).symm fun i w w' hw hw' => ?_
    by_cases hi : i = n
    · subst hi
      obtain rfl := Option.some.inj (hw.symm.trans hv)
      obtain ⟨hlt, -⟩ := List.getElem?_eq_some_iff.1 hw
      rw [List.getElem?_set_self hlt] at hw'
      exact Option.some.inj hw' ▸ h
    · rw [List.getElem?_set_ne (Ne.symm hi)] at hw'
      obtain rfl := Option.some.inj (hw.symm.trans hw')
      exact .refl _ _
  | _ => cases hv

theorem onItems (h : j.onItems f = .ok j')
    (hparts : ∀ n i i', j.item? n = some i → f i = .ok i' → DiffersOnly (sites.below (.item n)) i i') :
    DiffersOnly sites j j' := by
  cases j with
  | arr items =>
    obtain ⟨items', hitems, heq⟩ := Except.bind_eq_ok_iff.1 h
    obtain rfl := Except.ok.inj heq
    have hforall := Except.mapM_eq_ok_iff.1 hitems
    refine .arr hforall.length_eq fun n i i' hi hi' => ?_
    exact hparts n i i' hi (Json.getElem?_forall₂ hforall hi hi')
  | _ =>
    obtain rfl := Except.ok.inj h
    exact .refl _ _

theorem onObj (h : j.onObj f = .ok j') (hobj : f j = .ok j' → DiffersOnly sites j j') :
    DiffersOnly sites j j' := by
  cases j with
  | obj members => exact hobj h
  | _ =>
    obtain rfl := Except.ok.inj h
    exact .refl _ _

/-- Entries of which the first one with a key has been given another value. -/
theorem forall₂_put (h : List.Forall₂ (Entry sites) members members') (hkeys : ∀ k, ¬sites .key [.member k])
    (hkey : key ∈ members'.map Prod.fst)
    (hw : ∀ v, members.lookup key = some v → DiffersOnly (sites.below (.member key)) v w) :
    List.Forall₂ (Entry sites) members (Assoc.put key w members') := by
  induction h with
  | nil => cases hkey
  | @cons e e' members members' he hrest ih =>
    obtain ⟨k, v⟩ := e
    obtain ⟨k', v'⟩ := e'
    obtain rfl : k' = k := he.1.resolve_right (hkeys k)
    by_cases hk : k' = key
    · rw [Assoc.put, if_pos hk]
      rw [Assoc.lookup_cons, if_pos hk.symm] at hw
      exact .cons ⟨.inl rfl, hk ▸ hw v rfl⟩ hrest
    · rw [Assoc.put, if_neg hk]
      rw [Assoc.lookup_cons, if_neg (Ne.symm hk)] at hw
      have hkey' : key ∈ members'.map Prod.fst := (List.mem_cons.1 hkey).resolve_left (Ne.symm hk)
      exact .cons he (ih hkey' hw)

/-- A member is given a value that may be there, in a map that has kept its keys. -/
theorem setMember (h : DiffersOnly sites j j₁) (hkeys : ∀ k, ¬sites .key [.member k])
    (hw : ∀ v, j.member? key = some v → DiffersOnly (sites.below (.member key)) v w)
    (hnew : j₁.member? key = none → sites .entry [.member key]) : DiffersOnly sites j (j₁.setMember key w) := by
  cases h with
  | site hc hsite => exact .site hc hsite
  | leaf hj =>
    have hobj : ¬j.isObj := by
      intro hobj
      cases j with
      | obj members => cases hj
      | _ => cases hobj
    rw [Json.setMember_of_not_isObj hobj]
    exact .leaf hj
  | arr hlength hitems => exact .arr hlength hitems
  | @obj _ members members' added hlength hkey hvalue hnodup hadded =>
    have hentries : List.Forall₂ (Entry sites) members members' := Json.forall₂_iff_getElem?.2
      ⟨hlength, fun n e e' he he' => ⟨hkey n e e' he he', hvalue n e e' he he'⟩⟩
    have hsame : members'.map Prod.fst = members.map Prod.fst :=
      Json.keys_of_forall₂ (hentries.imp fun e e' he => ⟨he.1.resolve_right (hkeys _), he.2⟩)
    by_cases hmem : key ∈ members'.map Prod.fst
    · rw [Json.setMember, Assoc.put_append_of_mem hmem]
      exact of_entries (forall₂_put hentries hkeys hmem hw) hnodup hadded
    · rw [Json.setMember, Assoc.put_append hmem]
      refine of_entries hentries (Assoc.nodup_keys_put hnodup key w) fun e he => ?_
      rcases Assoc.mem_put he with rfl | he
      · refine ⟨?_, hsame ▸ hmem⟩
        by_cases hthere : key ∈ added.map Prod.fst
        · obtain ⟨e, hold, rfl⟩ := List.mem_map.1 hthere
          exact (hadded e hold).1
        · refine hnew (Assoc.lookup_eq_none ?_)
          rw [List.map_append, List.mem_append, not_or]
          exact ⟨hmem, hthere⟩
      · exact hadded e he

/-- An entry at a site is set, whether it is there or not. -/
theorem setEntry (h : DiffersOnly sites j j₁) (hkeys : ∀ k, ¬sites .key [.member k])
    (hsite : sites .entry [.member key]) (w : Json) : DiffersOnly sites j (j₁.setMember key w) :=
  h.setMember hkeys (fun _ _ => .entry hsite) fun _ => hsite

/-- A member at a site is acted on, if it is there. -/
theorem thenMember (h : DiffersOnly sites j j₁) (hkeys : ∀ k, ¬sites .key [.member k])
    (hsite : sites .value [.member key]) (hact : j₁.onMember key f = .ok j') : DiffersOnly sites j j' := by
  cases hv : j₁.member? key with
  | none =>
    rw [Json.onMember_of_none hv] at hact
    obtain rfl := Except.ok.inj hact
    exact h
  | some v =>
    rw [Json.onMember_of_some hv] at hact
    obtain ⟨w, -, hact⟩ := Except.bind_eq_ok_iff.1 hact
    obtain rfl := Except.ok.inj hact
    refine h.setMember hkeys (fun _ _ => .value hsite) fun hnone => ?_
    rw [hv] at hnone
    cases hnone

/-- A member that is there is changed. -/
theorem changeMember (hv : j.member? key = some v) (hkeys : ∀ k, ¬sites .key [.member k])
    (h : DiffersOnly (sites.below (.member key)) v w) : DiffersOnly sites j (j.setMember key w) := by
  refine (refl sites j).setMember hkeys (fun u hu => ?_) fun hnone => ?_
  · exact Option.some.inj (hv.symm.trans hu) ▸ h
  · rw [hv] at hnone
    cases hnone

end DiffersOnly

/-! ## Changes of members in turn -/

namespace Json

variable {ε : Type} {acts : List (String × (Json → Except ε Json))} {j j' : Json} {key : String}

/-- Acts on members, one after the other. -/
def inTurn (acts : List (String × (Json → Except ε Json))) (j : Json) : Except ε Json :=
  acts.foldlM (fun j a => j.onMember a.1 a.2) j

/-- What becomes of the value of one member. -/
def turnOf (key : String) : List (String × (Json → Except ε Json)) → Json → Except ε Json
  | [], v => pure v
  | (k, f) :: acts, v => if k = key then f v >>= turnOf key acts else turnOf key acts v

theorem inTurn_nil : inTurn ([] : List (String × (Json → Except ε Json))) = pure := rfl

theorem inTurn_cons (a : String × (Json → Except ε Json)) :
    inTurn (a :: acts) = fun j => j.onMember a.1 a.2 >>= inTurn acts := rfl

theorem inTurn_append (acts acts' : List (String × (Json → Except ε Json))) (j : Json) :
    j.inTurn (acts ++ acts') = j.inTurn acts >>= inTurn acts' :=
  List.foldlM_append

theorem turnOf_nil : turnOf key ([] : List (String × (Json → Except ε Json))) = pure := rfl

theorem turnOf_cons_self (f : Json → Except ε Json) :
    turnOf key ((key, f) :: acts) = fun v => f v >>= turnOf key acts :=
  funext fun _ => if_pos rfl

theorem turnOf_cons_of_ne {k : String} (h : k ≠ key) (f : Json → Except ε Json) :
    turnOf key ((k, f) :: acts) = turnOf key acts :=
  funext fun _ => if_neg h

theorem turnOf_append (acts acts' : List (String × (Json → Except ε Json))) (v : Json) :
    turnOf key (acts ++ acts') v = turnOf key acts v >>= turnOf key acts' := by
  induction acts generalizing v with
  | nil => rfl
  | cons a acts ih =>
    obtain ⟨k, f⟩ := a
    rw [List.cons_append, turnOf, turnOf]
    split
    · rw [bind_assoc]
      exact bind_congr ih
    · exact ih v

theorem turnOf_of_not_mem (h : key ∉ acts.map Prod.fst) (v : Json) : turnOf key acts v = .ok v := by
  induction acts with
  | nil => rfl
  | cons a acts ih =>
    rw [turnOf_cons_of_ne fun hk => h (List.mem_cons.2 (.inl hk.symm))]
    exact ih (List.not_mem_of_not_mem_cons h)

/-- Each member is acted on by the actions for its key, and the keys stay. -/
theorem exists_of_inTurn {members : List (String × Json)} (h : (obj members).inTurn acts = .ok j') :
    ∃ members', j' = obj members' ∧ members'.map Prod.fst = members.map Prod.fst ∧
      ∀ key v, members.lookup key = some v →
        ∃ v', members'.lookup key = some v' ∧ turnOf key acts v = .ok v' := by
  induction acts generalizing members with
  | nil =>
    obtain rfl := Except.ok.inj h
    exact ⟨members, rfl, rfl, fun key v hv => ⟨v, hv, rfl⟩⟩
  | cons a acts ih =>
    obtain ⟨k, f⟩ := a
    rw [inTurn, List.foldlM_cons] at h
    obtain ⟨j₁, hact, h⟩ := Except.bind_eq_ok_iff.1 h
    cases hk : members.lookup k with
    | none =>
      rw [onMember_of_none (j := obj members) hk] at hact
      obtain rfl := Except.ok.inj hact
      obtain ⟨members', rfl, hkeys, hmembers⟩ := ih h
      refine ⟨members', rfl, hkeys, fun key v hv => ?_⟩
      have hne : k ≠ key := by
        rintro rfl
        rw [hk] at hv
        cases hv
      rw [turnOf, if_neg hne]
      exact hmembers key v hv
    | some u =>
      rw [onMember_of_some (j := obj members) hk] at hact
      obtain ⟨w, hw, hact⟩ := Except.bind_eq_ok_iff.1 hact
      obtain rfl := Except.ok.inj hact
      obtain ⟨members', rfl, hkeys, hmembers⟩ := ih h
      rw [Assoc.keys_put_of_mem (List.mem_map_of_mem (Assoc.mem_of_lookup hk))] at hkeys
      refine ⟨members', rfl, hkeys, fun key v hv => ?_⟩
      have hmember := hmembers key
      rw [Assoc.lookup_put] at hmember
      rw [turnOf]
      by_cases hkey : key = k
      · subst hkey
        obtain rfl := Option.some.inj (hk.symm.trans hv)
        rw [if_pos rfl] at hmember ⊢
        rw [show f u = .ok w from hw]
        exact hmember w rfl
      · rw [if_neg (Ne.symm hkey)]
        rw [if_neg hkey] at hmember
        exact hmember v hv

theorem inTurn_of_not_isObj (h : ¬j.isObj) : j.inTurn acts = .ok j := by
  induction acts with
  | nil => rfl
  | cons a acts ih =>
    rw [inTurn, List.foldlM_cons, onMember_of_none (member?_of_not_isObj h a.1)]
    exact ih

end Json

namespace DiffersOnly

variable {ε : Type} {acts : List (String × (Json → Except ε Json))} {sites : Sites} {j j' : Json}

/-- Members that are changed in turn and then all of them differ as the changes of each one do. -/
theorem inTurn_onMembers {f : String → Json → Except ε Json} (hj : j.WellFormed)
    (h : (j.inTurn acts >>= Json.onMembers f) = .ok j')
    (hparts : ∀ key v v', j.member? key = some v → (Json.turnOf key acts v >>= f key) = .ok v' →
      DiffersOnly (sites.below (.member key)) v v') : DiffersOnly sites j j' := by
  obtain ⟨j₁, hacts, h⟩ := Except.bind_eq_ok_iff.1 h
  cases j with
  | obj members =>
    obtain ⟨members₁, rfl, hkeys, hmembers⟩ := Json.exists_of_inTurn hacts
    obtain ⟨members', rfl, hforall⟩ := Json.onMembers_eq_ok_iff.1 h
    refine of_lookup hj.1 ((Json.keys_of_forall₂ hforall).trans hkeys) fun key v v' hv hv' => ?_
    obtain ⟨v₁, hv₁, hturn⟩ := hmembers key v hv
    obtain ⟨-, hnone⟩ | ⟨w, w', hw, hw', hf⟩ :=
      Json.lookup_forall₂ (f := fun key v => {v' | f key v = .ok v'}) hforall key
    · rw [hnone] at hv'
      cases hv'
    · obtain rfl := Option.some.inj (hv₁.symm.trans hw)
      obtain rfl := Option.some.inj (hv'.symm.trans hw')
      exact hparts key v v' hv (Except.bind_eq_ok_iff.2 ⟨v₁, hturn, hf⟩)
  | _ =>
    rw [Json.inTurn_of_not_isObj (by simp [Json.isObj])] at hacts
    obtain rfl := Except.ok.inj hacts
    obtain rfl := Except.ok.inj h
    exact refl _ _

/-- Members that are changed in turn differ as the changes of each one do. -/
theorem inTurn (hj : j.WellFormed) (h : j.inTurn acts = .ok j')
    (hparts : ∀ key ∈ acts.map Prod.fst, ∀ v v', j.member? key = some v → Json.turnOf key acts v = .ok v' →
      DiffersOnly (sites.below (.member key)) v v') : DiffersOnly sites j j' := by
  have hthen : (j.inTurn acts >>= Json.onMembers fun _ => pure) = .ok j' := by
    rw [funext Json.onMembers_pure, bind_pure]
    exact h
  refine inTurn_onMembers hj hthen fun key v v' hv hv' => ?_
  rw [bind_pure] at hv'
  by_cases hkey : key ∈ acts.map Prod.fst
  · exact hparts key hkey v v' hv hv'
  · rw [Json.turnOf_of_not_mem hkey] at hv'
    obtain rfl := Except.ok.inj hv'
    exact refl _ v

theorem onMember {key : String} {f : Json → Except ε Json} (hj : j.WellFormed) (h : j.onMember key f = .ok j')
    (hpart : ∀ v v', j.member? key = some v → f v = .ok v' → DiffersOnly (sites.below (.member key)) v v') :
    DiffersOnly sites j j' := by
  have hturn : j.inTurn [(key, f)] = .ok j' := by
    simp only [Json.inTurn_cons, Json.inTurn_nil, bind_pure]
    exact h
  refine inTurn hj hturn fun k hk v v' hv hv' => ?_
  obtain rfl := List.mem_singleton.1 hk
  simp only [Json.turnOf_cons_self, Json.turnOf_nil, bind_pure] at hv'
  exact hpart v v' hv hv'

/-- Two members are changed. -/
theorem onMember_onMember {key key' : String} {f g : Json → Except ε Json} (hne : key ≠ key') (hj : j.WellFormed)
    (h : j.onMember key f >>= Json.onMember key' g = .ok j')
    (hfirst : ∀ v v', j.member? key = some v → f v = .ok v' → DiffersOnly (sites.below (.member key)) v v')
    (hsecond : ∀ v v', j.member? key' = some v → g v = .ok v' → DiffersOnly (sites.below (.member key')) v v') :
    DiffersOnly sites j j' := by
  have hturns : j.inTurn [(key, f), (key', g)] = .ok j' := by
    simp only [Json.inTurn_cons, Json.inTurn_nil, bind_pure]
    exact h
  refine inTurn hj hturns fun k hk v v' hv hv' => ?_
  obtain rfl | hk := List.mem_cons.1 hk
  · simp only [Json.turnOf_cons_self, Json.turnOf_cons_of_ne hne.symm, Json.turnOf_nil, bind_pure] at hv'
    exact hfirst v v' hv hv'
  · obtain rfl := List.mem_singleton.1 hk
    simp only [Json.turnOf_cons_of_ne hne, Json.turnOf_cons_self, Json.turnOf_nil, bind_pure] at hv'
    exact hsecond v v' hv hv'

end DiffersOnly

end Rehome
