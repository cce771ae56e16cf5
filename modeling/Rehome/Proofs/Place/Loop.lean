import Rehome.Proofs.Place.Stops
import Rehome.Proofs.Place.Traversal

/-! # A traversal is a loop over the stops

The recursion of a walk, with its effects, comes to acting on one stop of the document after the other
(`Walk.document_eq_perform`): what a visit has made of a place does not change which places are visited, and
where. Hence what a walk collects is what is found at the stops in order (`Walk.collect_document`), and a walk
that fails has failed at one stop, all before it having been visited and none after it
(`Walk.perform_eq_error_iff`). A traversal is such a loop as well, and its stack is in the end what it was at
first (`Traversal.document_visits_in_turn`). -/

namespace Rehome

namespace Walk

/-- Visits stops of a value one after the other. -/
def perform {m : Type → Type} [Monad m] (act : Trail → Json → m Json) (stops : List Stop) (j : Json) :
    m Json :=
  stops.foldlM (fun j stop => j.onPosition stop.position (act stop.trail)) j

variable {m : Type → Type} [Monad m] [LawfulMonad m] {α : Type} {act : Trail → Json → m Json} {j : Json}

/-! ## Parts of a loop -/

theorem perform_append (front later : List Stop) (j : Json) :
    perform act (front ++ later) j = perform act front j >>= perform act later :=
  List.foldlM_append

theorem perform_here (trail : Trail) (v j : Json) : perform act (here trail v) j = act trail j := by
  simp [perform, here, Json.onPosition]

theorem perform_under (step : Step) (stops : List Stop) (j : Json) :
    perform act (stops.map (Stop.under step)) j = j.onStep step (perform act stops) := by
  rw [perform, List.foldlM_map]
  exact Json.foldlM_onStep step (fun stop => Json.onPosition stop.position (act stop.trail)) stops j

theorem perform_flatMap (stops : α → List Stop) (as : List α) (j : Json) :
    perform act (as.flatMap stops) j = as.foldlM (fun j a => perform act (stops a) j) j := by
  induction as generalizing j with
  | nil => rfl
  | cons a as ih =>
    rw [List.flatMap_cons, perform_append, List.foldlM_cons]
    exact bind_congr ih

theorem perform_pure (stops : List Stop) (j : Json) : perform (fun _ => (pure : Json → m Json)) stops j = pure j := by
  induction stops with
  | nil => rfl
  | cons stop stops ih =>
    rw [perform, List.foldlM_cons, Json.onPosition_pure, pure_bind]
    exact ih

section Values

variable {f : Json → m Json} {stops : Json → List Stop}

theorem onStep_perform (step : Step) (h : ∀ v, j.step? step = some v → f v = perform act (stops v) v) :
    j.onStep step f = perform act (inside step stops j) j := by
  rw [inside]
  cases hv : j.step? step with
  | none =>
    rw [← Json.onStep_congr (f := pure) fun v hv' => by simp [hv] at hv']
    exact Json.onStep_pure step j
  | some v =>
    rw [perform_under]
    refine Json.onStep_congr fun w hw => ?_
    obtain rfl := Option.some.inj (hv.symm.trans hw)
    exact h v hv

omit [LawfulMonad m] in
theorem onObj_perform (h : j.isObj → f j = perform act (stops j) j) :
    j.onObj f = perform act (ifObj stops j) j := by
  cases j with
  | obj members => exact h rfl
  | _ => rfl

omit [LawfulMonad m] in
theorem onArr_perform (h : f j = perform act (stops j) j) : j.onArr f = perform act (ifArr stops j) j := by
  cases j with
  | arr items => exact h
  | _ => rfl

omit [LawfulMonad m] in
theorem unlessNull_perform (h : f j = perform act (stops j) j) :
    j.unlessNull f = perform act (unlessNull stops j) j := by
  rw [unlessNull]
  cases j with
  | null => rw [if_pos rfl]; rfl
  | _ => rw [if_neg (by simp)]; exact h

omit [Monad m] [LawfulMonad m] in
theorem inMembers_obj {members : List (String × Json)} (h : (members.map Prod.fst).Nodup)
    (stops : String → Json → List Stop) : inMembers stops (.obj members) =
      members.flatMap fun e => (stops e.1 e.2).map (Stop.under (.member e.1)) := by
  rw [inMembers, Json.keys, List.flatMap_map]
  refine List.flatMap_congr fun e he => ?_
  have hlookup : members.lookup e.1 = some e.2 := (Assoc.lookup_eq_some_iff_mem h).2 he
  simp only [inside, Json.step?, Json.member?, hlookup]

theorem onMembers_perform {f : String → Json → m Json} {stops : String → Json → List Stop}
    (hj : j.keys.Nodup) (h : ∀ key v, f key v = perform act (stops key v) v) :
    j.onMembers f = perform act (inMembers stops j) j := by
  cases j with
  | obj members =>
    rw [Json.onMembers_eq_foldlM (g := fun e => perform act (stops e.1 e.2)) hj fun e _ => h e.1 e.2]
    rw [inMembers_obj hj, perform_flatMap]
    simp only [perform_under]
    rfl
  | _ => rfl

theorem onItems_perform (h : ∀ n v, j.item? n = some v → f v = perform act (stops v) v) :
    j.onItems f = perform act (inItems stops j) j := by
  cases j with
  | arr items =>
    have hitems (e : Json × Nat) (he : e ∈ items.zipIdx) : f e.1 = perform act (stops e.1) e.1 :=
      h e.2 e.1 (List.mem_zipIdx_iff_getElem?.1 he)
    rw [Json.onItems_eq_foldlM (g := fun e => perform act (stops e.1)) hitems]
    rw [inItems, perform_flatMap]
    simp only [perform_under]
    rfl
  | _ => rfl

end Values

/-! ## One member after the other -/

/-- The second value has the members of the first one, but for some keys. -/
def SameBut (keys : List String) (d j : Json) : Prop := ∀ k ∉ keys, j.member? k = d.member? k

omit [LawfulMonad m] in
theorem compatible_eq : Compatible (m := m) (n := m) fun _ x y => x = y where
  pure _ := rfl
  bind {α β x y f g} h hfg := by
    subst h
    exact bind_congr hfg

/-- The visits in one member, and then others, which find all other members as they were. -/
theorem onMember_bind_perform {keys : List String} {key : String} {d : Json} {f g : Json → m Json}
    {stops : Json → List Stop} {later : List Stop} (hj : SameBut keys d j) (hkey : key ∉ keys)
    (h : ∀ v, d.member? key = some v → f v = perform act (stops v) v)
    (hlater : ∀ j', SameBut (key :: keys) d j' → g j' = perform act later j') :
    (j.onMember key f >>= g) = perform act (inside (.member key) stops d ++ later) j := by
  have hinside : inside (.member key) stops d = inside (.member key) stops j := by
    rw [inside, inside, Json.step?, Json.step?, hj key hkey]
  have hmember : j.onMember key f = perform act (inside (.member key) stops j) j :=
    onStep_perform (.member key) fun v hv => h v ((hj key hkey).symm.trans hv)
  rw [perform_append, hinside, ← hmember]
  refine compatible_eq.onMember_bind key (fun v _ => rfl) fun j' hj' => hlater j' fun k hk => ?_
  obtain ⟨hne, hk⟩ := not_or.1 (mt List.mem_cons.2 hk)
  exact (hj' k hne).trans (hj k hk)

theorem perform_at_last {trail : Trail} {d j : Json} : act trail j = perform act (here trail d) j :=
  (perform_here trail d j).symm

theorem sameBut_self (d : Json) : SameBut [] d d := fun _ _ => rfl

/-! ## Queries -/

omit [LawfulMonad m] in
theorem nestedQuery_eq (trail : Trail) (members : List (String × Json)) :
    nestedQuery act trail members = match members.lookup "source-query" with
      | some v => if v.isObj then some <$> query act trail v else pure none
      | none => pure none := by
  induction members with
  | nil => rfl
  | cons e rest ih =>
    obtain ⟨k, v⟩ := e
    rw [nestedQuery, Assoc.lookup_cons]
    by_cases hk : k = "source-query"
    · rw [if_pos hk, if_pos hk.symm]
    · rw [if_neg hk, if_neg (Ne.symm hk), ih]

omit [LawfulMonad m] in
theorem joinsOf_eq (trail : Trail) (members : List (String × Json)) :
    joinsOf act trail members = match members.lookup "joins" with
      | some v => joinList act trail v
      | none => pure none := by
  induction members with
  | nil => rfl
  | cons e rest ih =>
    obtain ⟨k, v⟩ := e
    rw [joinsOf, Assoc.lookup_cons]
    by_cases hk : k = "joins"
    · rw [if_pos hk, if_pos hk.symm]
    · rw [if_neg hk, if_neg (Ne.symm hk), ih]

theorem joins_eq_mapM (trail : Trail) (items : List Json) :
    joins act trail items = items.mapM (Json.onObj (join act trail)) := by
  induction items with
  | nil => simp [joins]
  | cons v rest ih =>
    have hv : v.onObj (join act trail) = join act trail v := by cases v <;> simp [Json.onObj, join]
    rw [joins, List.mapM_cons, ih, hv]

theorem nestedQuery_bind {β : Type} (trail : Trail) (members : List (String × Json)) (g : Json → m β) :
    (nestedQuery act trail members >>= fun nested => g (.obj (putBack "source-query" nested members))) =
      (Json.obj members).onMember "source-query" (Json.onObj (query act trail)) >>= g := by
  rw [nestedQuery_eq, Json.onMember]
  cases hv : members.lookup "source-query" with
  | none => simp [putBack]
  | some v =>
    cases v with
    | obj ms => simp [Json.isObj, Json.onObj, putBack]
    | _ => simp [Json.isObj, Json.onObj, putBack, Assoc.put_eq_self hv]

variable (act) in
theorem joinsOf_bind {β : Type} (trail : Trail) (members ms : List (String × Json))
    (h : ms.lookup "joins" = members.lookup "joins") (g : Json → m β) :
    (joinsOf act trail members >>= fun joins => g (.obj (putBack "joins" joins ms))) =
      (Json.obj ms).onMember "joins" (Json.onItems (Json.onObj (join act trail))) >>= g := by
  rw [joinsOf_eq, Json.onMember, h]
  cases hv : members.lookup "joins" with
  | none => simp [putBack]
  | some v =>
    cases v with
    | arr items => simp [joinList, joins_eq_mapM, Json.onItems, putBack]
    | _ => simp [joinList, Json.onItems, putBack, Assoc.put_eq_self (h.trans hv)]

/-- A query part: its nested query is acted on, then its joins, then the query part itself. -/
theorem query_eq {trail : Trail} {q : Json} (hq : q.isObj) : query act trail q =
    q.onMember "source-query" (Json.onObj (query act (trail.push .queryPart none))) >>= fun q =>
    q.onMember "joins" (Json.onItems (Json.onObj (join act (trail.push .queryPart none)))) >>= fun q =>
    act (trail.push .queryPart none) q := by
  cases q with
  | obj members =>
    have hjoins (nested : Option Json) := joinsOf_bind act (trail.push .queryPart none) members
      (putBack "source-query" nested members) (lookup_putBack "source-query" "joins" nested members)
      (act (trail.push .queryPart none))
    rw [query]
    simp only [hjoins]
    exact nestedQuery_bind (trail.push .queryPart none) members fun q =>
      q.onMember "joins" (Json.onItems (Json.onObj (join act (trail.push .queryPart none)))) >>=
        act (trail.push .queryPart none)
  | _ => cases hq

/-- A join: its nested query is acted on, then the join itself. -/
theorem join_eq {trail : Trail} {q : Json} (hq : q.isObj) : join act trail q =
    q.onMember "source-query" (Json.onObj (query act (trail.push .join (q.text? "alias")))) >>= fun q' =>
    act (trail.push .join (q.text? "alias")) q' := by
  cases q with
  | obj members =>
    rw [join]
    exact nestedQuery_bind (trail.push .join (titleOf "alias" members)) members
      (act (trail.push .join (titleOf "alias" members)))
  | _ => cases hq

theorem query_perform (trail : Trail) (q : Json) :
    (q.isObj → query act trail q = perform act (queryStops (trail.push .queryPart none) q) q) ∧
      (q.isObj → join act trail q = perform act (joinStops (trail.push .join (q.text? "alias")) q) q) := by
  induction q using Json.inside_induction generalizing trail with
  | h q ih =>
    have hnested (t : Trail) (v : Json) (hv : q.member? "source-query" = some v) :
        v.onObj (query act t) = perform act (ifObj (queryStops (t.push .queryPart none)) v) v :=
      onObj_perform (ih (.member "source-query") [] v ((Json.at?_singleton _ q).trans hv) t).1
    have hjoins (t : Trail) (joins : Json) (hj : q.member? "joins" = some joins) :
        joins.onItems (Json.onObj (join act t)) =
          perform act (inItems (ifObj fun v => joinStops (t.push .join (v.text? "alias")) v) joins) joins := by
      refine onItems_perform fun n v hv => onObj_perform (ih (.member "joins") [.item n] v ?_ t).2
      rw [Json.at?_cons, Json.step?, hj, Option.bind_some, Json.at?_singleton]
      exact hv
    constructor
    · intro hq
      rw [query_eq hq, queryStops_eq]
      refine onMember_bind_perform (sameBut_self q) List.not_mem_nil (hnested _) fun j hj => ?_
      exact onMember_bind_perform hj (by decide) (hjoins _) fun j _ => perform_at_last
    · intro hq
      rw [join_eq hq, joinStops_eq]
      exact onMember_bind_perform (sameBut_self q) List.not_mem_nil (hnested _) fun j _ => perform_at_last

/-! ## Settings, cards and dashboards -/

/-- The clicks of columns are acted on, then the columns as a whole. -/
theorem columns_perform (trail : Trail) {columns : Json} (h : columns.keys.Nodup) :
    (columns.onMembers (columnClick act trail) >>= Json.onObj (act (trail.push .columnSettings none))) =
      perform act (inMembers (fun key => inside (.member "click_behavior")
        (ifObj (here ((trail.push .columnSettings (some key)).push .clickBehavior none)))) columns ++
        ifObj (here (trail.push .columnSettings none)) columns) columns := by
  have hclicks : columns.onMembers (columnClick act trail) = perform act (inMembers (fun key =>
      inside (.member "click_behavior")
        (ifObj (here ((trail.push .columnSettings (some key)).push .clickBehavior none)))) columns) columns := by
    refine onMembers_perform h fun key column => ?_
    refine onStep_perform (.member "click_behavior") fun v _ => ?_
    exact onObj_perform fun _ => perform_at_last
  rw [perform_append, ← hclicks]
  cases columns with
  | obj members =>
    simp only [Json.onMembers, bind_assoc, pure_bind]
    exact bind_congr fun members' => perform_at_last
  | _ => simp [Json.onMembers, Json.onObj, ifObj, Json.isObj, perform]

theorem settings_perform (trail : Trail) {s : Json} (hs : s.WellFormed) :
    settings act trail s = perform act (settingsStops (trail.push .visualizationSettings none) s) s := by
  have hplain (t : Trail) (key : String) (v : Json) (_ : s.member? key = some v) :
      v.onObj (act t) = perform act (ifObj (here t) v) v := onObj_perform fun _ => perform_at_last
  rw [settings, settingsStops]
  refine onMember_bind_perform (sameBut_self s) List.not_mem_nil (hplain _ _) fun j hj => ?_
  refine onMember_bind_perform hj (by decide) (fun v _ => onArr_perform perform_at_last) fun j hj => ?_
  rw [← bind_assoc, Json.onMember_onMember]
  refine onMember_bind_perform hj (by decide)
    (fun v hv => columns_perform _ (hs.member? hv).nodup_keys) fun j hj => ?_
  exact onMember_bind_perform hj (by decide) (hplain _ _) fun j _ => perform_at_last

theorem card_perform (trail : Trail) {c : Json} (hc : c.WellFormed) :
    card act trail c = perform act (cardStops (trail.push .card (cardTitle c)) c) c := by
  have hquery (q : Json) : q.onMember "query" (Json.onObj (query act (trail.push .card (cardTitle c)))) =
      perform act (inside (.member "query")
        (ifObj (queryStops ((trail.push .card (cardTitle c)).push .queryPart none))) q) q :=
    onStep_perform (.member "query") fun v _ => onObj_perform (query_perform _ v).1
  rw [card, cardStops]
  refine onMember_bind_perform (sameBut_self c) List.not_mem_nil (fun v hv => ?_) fun j hj => ?_
  · exact onObj_perform fun _ => settings_perform _ (hc.member? hv)
  refine onMember_bind_perform hj (by decide) (fun q _ => hquery q) fun j hj => ?_
  refine onMember_bind_perform hj (by decide) (fun v _ => ?_) fun j _ => perform_at_last
  exact onItems_perform fun _ _ _ => onObj_perform fun _ => perform_at_last

theorem dashboard_perform (trail : Trail) {d : Json} (hd : d.WellFormed) :
    dashboard act trail d = perform act (dashboardStops (trail.push .dashboard (d.text? "name")) d) d := by
  rw [dashboard, dashboardStops]
  refine onMember_bind_perform (sameBut_self d) List.not_mem_nil (fun items hitems => ?_) fun j hj => ?_
  · refine onItems_perform fun n c hc => onObj_perform fun _ => card_perform _ ?_
    exact (hd.member? hitems).item? hc
  refine onMember_bind_perform hj (by decide) (fun v _ => onArr_perform perform_at_last) fun j hj => ?_
  refine onMember_bind_perform hj (by decide) (fun items _ => ?_) fun j hj => ?_
  · exact onItems_perform fun _ p _ => onObj_perform fun _ => perform_at_last (d := p)
  refine onMember_bind_perform hj (by decide) (fun v _ => unlessNull_perform perform_at_last) fun j hj => ?_
  exact onMember_bind_perform hj (by decide) (fun v _ => unlessNull_perform perform_at_last)
    fun j _ => perform_at_last

/-- Walking a document is visiting its stops one after the other. -/
theorem document_eq_perform {kind : EntityKind} {d : Json} (hd : d.WellFormed) (trail : Trail) :
    document kind act trail d = perform act (documentStops kind trail d) d := by
  cases kind with
  | card => exact card_perform trail hd
  | dashboard => exact dashboard_perform trail hd

/-! ## Visits that change nothing -/

section Unchanged

omit [LawfulMonad m] in
theorem PlaceAt.at? {trail : Trail} {stop : Stop} (h : PlaceAt trail j stop) :
    j.at? stop.position = some stop.place := by
  induction h with
  | self => rfl
  | inside _ hholds _ ih =>
    rw [Stop.within, Json.at?_append, hholds.at?]
    exact ih

variable {β : Type} {x : m β}

theorem onStep_unchanged {step : Step} {f : Json → m Json} {v : Json} (hv : j.step? step = some v)
    (h : f v = x >>= fun _ => pure v) : j.onStep step f = x >>= fun _ => pure j := by
  cases step with
  | member key =>
    cases j with
    | obj members =>
      rw [Json.onStep, Json.onMember, show members.lookup key = some v from hv]
      simp only [h, bind_assoc, pure_bind, Assoc.put_eq_self hv]
    | _ => cases hv
  | item n =>
    cases j with
    | arr items =>
      obtain ⟨hn, rfl⟩ := List.getElem?_eq_some_iff.1 hv
      rw [Json.onStep, Json.onItem, show items[n]? = some items[n] from hv]
      simp only [h, bind_assoc, pure_bind, List.set_getElem_self]
    | _ => cases hv

theorem onPosition_unchanged {p : Position} {f : Json → m Json} {v : Json} (hv : j.at? p = some v)
    (h : f v = x >>= fun _ => pure v) : j.onPosition p f = x >>= fun _ => pure j := by
  induction p generalizing j with
  | nil =>
    obtain rfl := Option.some.inj hv
    exact h
  | cons step p ih =>
    obtain ⟨w, hw, hv⟩ := Option.bind_eq_some_iff.1 hv
    exact onStep_unchanged hw (ih hv)

theorem perform_collecting {look : Trail → Json → m (List α)} {stops : List Stop} {d : Json}
    (hplaces : ∀ stop ∈ stops, d.at? stop.position = some stop.place) (collected : List α) :
    perform (collecting fun trail j => do return (← look trail j, j)) stops d collected =
      do return (d, collected ++ (← stops.mapM fun stop => look stop.trail stop.place).flatten) := by
  induction stops generalizing collected with
  | nil =>
    show (pure (d, collected) : m (Json × List α)) = _
    simp
  | cons stop stops ih =>
    obtain ⟨hplace, hrest⟩ := List.forall_mem_cons.1 hplaces
    let gather : StateT (List α) m Unit := fun c => do return ((), c ++ (← look stop.trail stop.place))
    have hvisit : collecting (fun trail j => do return (← look trail j, j)) stop.trail stop.place =
        gather >>= fun _ => (pure stop.place : StateT (List α) m Json) := by
      funext c
      show (look stop.trail stop.place >>= fun found => pure (found, stop.place)) >>=
          (fun p => pure (p.2, c ++ p.1)) =
        (look stop.trail stop.place >>= fun found => pure ((), c ++ found)) >>= fun p => pure (stop.place, p.2)
      simp only [bind_assoc, pure_bind]
    rw [perform, List.foldlM_cons, onPosition_unchanged hplace hvisit, bind_assoc]
    simp only [pure_bind]
    show (gather collected >>= fun p =>
      perform (collecting fun trail j => do return (← look trail j, j)) stops d p.2) = _
    simp only [gather, pure_bind, bind_assoc, ih hrest, List.mapM_cons, List.flatten_cons, List.append_assoc]

/-- What a walk collects that changes nothing is what is found at the stops, in order. -/
theorem collect_document {kind : EntityKind} {d : Json} (hd : d.WellFormed) (trail : Trail)
    (look : Trail → Json → m (List α)) :
    collect (document kind) (fun trail j => do return (← look trail j, j)) trail d =
      do return ((← (documentStops kind trail d).mapM fun stop => look stop.trail stop.place).flatten, d) := by
  have hplaces (stop : Stop) (hstop : stop ∈ documentStops kind trail d) :
      d.at? stop.position = some stop.place := (mem_documentStops.1 hstop).at?
  rw [collect, document_eq_perform hd, StateT.run, perform_collecting hplaces]
  simp [Mergeable.empty]

end Unchanged

/-! ## Walks that fail -/

section Failures

variable {σ ε β : Type} {s s' : σ} {e : ε}

theorem bind_eq_error_iff {x : ExceptT ε (StateM σ) α} {f : α → ExceptT ε (StateM σ) β} :
    (x >>= f) s = (.error e, s') ↔
      x s = (.error e, s') ∨ ∃ a s₁, x s = (.ok a, s₁) ∧ f a s₁ = (.error e, s') := by
  show ExceptT.bindCont f (x s).1 (x s).2 = _ ↔ _
  rcases x s with ⟨e' | a, s₁⟩
  · constructor
    · intro h
      cases h
      exact .inl rfl
    · rintro (h | ⟨a, s₁, h, -⟩)
      · cases h
        rfl
      · cases h
  · constructor
    · exact fun h => .inr ⟨a, s₁, rfl, h⟩
    · rintro (h | ⟨a, s₁, h, hf⟩)
      · cases h
      · cases h
        exact hf

theorem bind_eq_ok_iff {x : ExceptT ε (StateM σ) α} {f : α → ExceptT ε (StateM σ) β} {b : β} :
    (x >>= f) s = (.ok b, s') ↔ ∃ a s₁, x s = (.ok a, s₁) ∧ f a s₁ = (.ok b, s') := by
  show ExceptT.bindCont f (x s).1 (x s).2 = _ ↔ _
  rcases x s with ⟨e' | a, s₁⟩
  · constructor
    · intro h
      cases h
    · rintro ⟨a, s₁, h, -⟩
      cases h
  · constructor
    · exact fun h => ⟨a, s₁, rfl, h⟩
    · rintro ⟨a, s₁, h, hf⟩
      cases h
      exact hf

/-- What follows an action in which it cannot fail. -/
theorem bind_pure_eq_error_iff {x : ExceptT ε (StateM σ) α} {f : α → β} :
    (x >>= fun a => pure (f a)) s = (.error e, s') ↔ x s = (.error e, s') := by
  rw [bind_eq_error_iff, or_iff_left]
  rintro ⟨a, s₁, -, h⟩
  cases h

variable {act : Trail → Json → ExceptT ε (StateM σ) Json}

theorem onStep_eq_error_iff {step : Step} {f : Json → ExceptT ε (StateM σ) Json} :
    j.onStep step f s = (.error e, s') ↔ ∃ v, j.step? step = some v ∧ f v s = (.error e, s') := by
  have hnone (step : Step) (h : j.step? step = none) :
      (pure j : ExceptT ε (StateM σ) Json) s = (.error e, s') ↔
        ∃ v, j.step? step = some v ∧ f v s = (.error e, s') := by
    simp only [h, reduceCtorEq, false_and, exists_false, iff_false]
    exact nofun
  cases step with
  | member key =>
    cases j with
    | obj members =>
      rw [Json.onStep, Json.onMember]
      cases hv : members.lookup key with
      | none => exact hnone (.member key) hv
      | some v =>
        rw [bind_pure_eq_error_iff]
        simp [Json.step?, Json.member?, hv]
    | _ => exact hnone (.member key) rfl
  | item n =>
    cases j with
    | arr items =>
      rw [Json.onStep, Json.onItem]
      cases hv : items[n]? with
      | none => exact hnone (.item n) hv
      | some v =>
        rw [bind_pure_eq_error_iff]
        simp [Json.step?, Json.item?, hv]
    | _ => exact hnone (.item n) rfl

theorem onPosition_eq_error_iff {p : Position} {f : Json → ExceptT ε (StateM σ) Json} :
    j.onPosition p f s = (.error e, s') ↔ ∃ v, j.at? p = some v ∧ f v s = (.error e, s') := by
  induction p generalizing j with
  | nil => simp [Json.onPosition]
  | cons step p ih =>
    simp only [Json.onPosition, onStep_eq_error_iff, ih, Json.at?_cons, Option.bind_eq_some_iff]
    constructor
    · rintro ⟨w, hw, v, hv, h⟩
      exact ⟨v, ⟨w, hw, hv⟩, h⟩
    · rintro ⟨v, ⟨w, hw, hv⟩, h⟩
      exact ⟨w, hw, v, hv, h⟩

/-- A loop fails at one stop: those before it have been visited, and those after it are not. -/
theorem perform_eq_error_iff {stops : List Stop} :
    perform act stops j s = (.error e, s') ↔ ∃ before stop after j₁ s₁ v,
      stops = before ++ stop :: after ∧ perform act before j s = (.ok j₁, s₁) ∧
        j₁.at? stop.position = some v ∧ act stop.trail v s₁ = (.error e, s') := by
  induction stops generalizing j s with
  | nil =>
    constructor
    · exact nofun
    · rintro ⟨before, stop, after, j₁, s₁, v, h, -⟩
      cases before <;> cases h
  | cons first stops ih =>
    rw [perform, List.foldlM_cons, bind_eq_error_iff, onPosition_eq_error_iff]
    constructor
    · rintro (⟨v, hv, h⟩ | ⟨j₁, s₁, hfirst, h⟩)
      · exact ⟨[], first, stops, j, s, v, rfl, rfl, hv, h⟩
      · obtain ⟨before, stop, after, j₂, s₂, v, rfl, hbefore, hv, h⟩ := ih.1 h
        refine ⟨first :: before, stop, after, j₂, s₂, v, rfl, ?_, hv, h⟩
        rw [perform, List.foldlM_cons, bind_eq_ok_iff]
        exact ⟨j₁, s₁, hfirst, hbefore⟩
    · rintro ⟨before, stop, after, j₂, s₂, v, hstops, hbefore, hv, h⟩
      cases before with
      | nil =>
        obtain ⟨rfl, rfl⟩ := List.cons.inj hstops
        obtain ⟨hj, rfl⟩ := Prod.mk.inj hbefore
        obtain rfl := Except.ok.inj hj
        exact .inl ⟨v, hv, h⟩
      | cons first' before =>
        obtain ⟨rfl, rfl⟩ := List.cons.inj hstops
        rw [perform, List.foldlM_cons, bind_eq_ok_iff] at hbefore
        obtain ⟨j₁, s₁, hfirst, hbefore⟩ := hbefore
        exact .inr ⟨j₁, s₁, hfirst, ih.2 ⟨before, stop, after, j₂, s₂, v, rfl, hbefore, hv, h⟩⟩

end Failures

end Walk

/-! ## Traversals -/

namespace Traversal

/-- A traversal fails as the loop over the stops does, with the stack that it has started with. -/
theorem document_eq_error_iff {σ ε α : Type} [Mergeable α] {kind : EntityKind} {d : Json} (hd : d.WellFormed)
    (visit : Trail → Json → ExceptT ε (StateM σ) (α × Json)) {stack stack' : Trail} {s s' : σ} {e : ε} :
    document kind visit d stack s = ((.error e, stack'), s') ↔ stack' = stack ∧
      Walk.perform (fun trail j => Prod.snd <$> visit trail j) (Walk.documentStops kind stack d) d s =
        (.error e, s') := by
  have hperforms := congrFun (document_performs kind visit stack d) s
  rw [Walk.document_eq_perform hd] at hperforms
  rcases hrun : document kind visit d stack s with ⟨⟨r, t⟩, s₁⟩
  rcases hloop : Walk.perform (fun trail j => Prod.snd <$> visit trail j) (Walk.documentStops kind stack d) d s
    with ⟨r', s₂⟩
  have hsame : ((r.map Prod.snd, t), s₁) = ((r', stack), s₂) := by
    refine Eq.trans ?_ (hperforms.trans ?_)
    · exact (congrArg (fun q => ((q.1.1.map Prod.snd, q.1.2), q.2)) hrun).symm
    · exact congrArg (fun q => ((q.1, stack), q.2)) hloop
  cases hsame
  cases r with
  | error e' =>
    constructor
    · intro h
      cases h
      exact ⟨rfl, rfl⟩
    · rintro ⟨rfl, h⟩
      cases h
      rfl
  | ok a =>
    constructor
    · intro h
      cases h
    · rintro ⟨-, h⟩
      cases h

/-- Every place of a document is visited once, after all places inside of it, with a stack that lists the places
it is in on top of those that were there before; and each visit finds what the visits before have left. The
stack is afterwards what it was. What is collected part by part is what is collected one visit after the other,
if the results may be bracketed in any way; and a traversal that changes nothing collects what is found at the
places in this order. A traversal that fails ends with the visit that fails, and with the stack as it was, too. -/
theorem document_visits_in_turn {kind : EntityKind} {d : Json} (hd : d.WellFormed) (stack : Trail) :
    (∀ stop, stop ∈ Walk.documentStops kind stack d ↔ Walk.DocumentPlaceAt kind stack d stop) ∧
    ((Walk.documentStops kind stack d).map Walk.Stop.position).Nodup ∧
    Walk.ChildrenFirst (Walk.documentStops kind stack d) ∧
    (∀ (m : Type → Type) [Monad m] [LawfulMonad m] (ε α : Type) [Mergeable α]
      (visit : Trail → Json → ExceptT ε m (α × Json)),
      (fun p => (p.1.map Prod.snd, p.2)) <$> document kind visit d stack = (fun r => (r, stack)) <$>
        (Walk.perform (fun trail j => Prod.snd <$> visit trail j) (Walk.documentStops kind stack d) d).run) ∧
    (∀ (m : Type → Type) [Monad m] [LawfulMonad m] (ε α : Type) [Mergeable α] [LawfulMergeable α]
      (visit : Trail → Json → ExceptT ε m (α × Json)),
      document kind visit d stack = (fun r => (r, stack)) <$> (Prod.swap <$> Walk.perform (Walk.collecting visit)
        (Walk.documentStops kind stack d) d Mergeable.empty : ExceptT ε m (α × Json)).run) ∧
    (∀ (m : Type → Type) [Monad m] [LawfulMonad m] (ε α : Type) (look : Trail → Json → ExceptT ε m (List α)),
      document kind (fun trail j => do return (← look trail j, j)) d stack = (fun r => (r, stack)) <$> (do
        let found ← (Walk.documentStops kind stack d).mapM fun stop => look stop.trail stop.place
        return (found.flatten, d) : ExceptT ε m (List α × Json)).run) ∧
    (∀ (σ ε α : Type) [Mergeable α] (visit : Trail → Json → ExceptT ε (StateM σ) (α × Json)) (s s' : σ)
      (stack' : Trail) (e : ε),
      document kind visit d stack s = ((.error e, stack'), s') ↔ stack' = stack ∧
        ∃ before stop after j₁ s₁ v, Walk.documentStops kind stack d = before ++ stop :: after ∧
          Walk.perform (fun trail j => Prod.snd <$> visit trail j) before d s = (.ok j₁, s₁) ∧
          j₁.at? stop.position = some v ∧ visit stop.trail v s₁ = (.error e, s')) := by
  have hfirst : Walk.ChildrenFirst (Walk.documentStops kind stack d) :=
    Walk.childrenFirst_documentStops hd stack
  refine ⟨fun stop => Walk.mem_documentStops, hfirst.nodup, hfirst, fun m _ _ ε α _ visit => ?_,
    fun m _ _ ε α _ _ visit => ?_, fun m _ _ ε α look => ?_, fun σ ε α _ visit s s' stack' e => ?_⟩
  · rw [document_performs, Walk.document_eq_perform hd]
  · rw [document_eq_collect, Walk.collect, StateT.run, Walk.document_eq_perform hd, map_eq_pure_bind Prod.swap]
    rfl
  · rw [document_eq_collect, Walk.collect_document hd]
  · rw [document_eq_error_iff hd, Walk.perform_eq_error_iff]
    simp only [map_eq_pure_bind, Walk.bind_pure_eq_error_iff]

/-- A dashboard whose only card joins a nested query. -/
def joinedDashboard : Json :=
  .obj [
    ("name", .str "Sales"),
    ("dashcards", .arr [.null, .obj [
      ("visualization_settings", .obj [
        ("column_settings", .obj [("A", .obj [("click_behavior", .obj [])])]), ("series_settings", .null)]),
      ("dataset_query", .obj [("query", .obj [
        ("joins", .arr [.obj [("alias", .str "P"), ("source-query", .obj [])]]),
        ("source-query", .obj [])])])]]),
    ("param_values", .null),
    ("parameters", .arr [.obj [("name", .str "Country")]])]

theorem joinedDashboard_visits : joinedDashboard.WellFormed ∧
    Id.run (document .dashboard (fun trail j => do
      return (← (pure [trail.reverse.map (·.kind)] : ExceptT String Id _), j)) joinedDashboard
        [⟨.tabs, some "Main"⟩]) =
    (.ok ([[.tabs, .dashboard, .card, .visualizationSettings, .columnSettings, .clickBehavior],
      [.tabs, .dashboard, .card, .visualizationSettings, .columnSettings],
      [.tabs, .dashboard, .card, .visualizationSettings],
      [.tabs, .dashboard, .card, .queryPart, .queryPart],
      [.tabs, .dashboard, .card, .queryPart, .join, .queryPart],
      [.tabs, .dashboard, .card, .queryPart, .join],
      [.tabs, .dashboard, .card, .queryPart],
      [.tabs, .dashboard, .card],
      [.tabs, .dashboard, .parameter],
      [.tabs, .dashboard]], joinedDashboard), [⟨.tabs, some "Main"⟩]) := by
  have hd : joinedDashboard.WellFormed := by
    simp [joinedDashboard, Json.WellFormed, Json.WellFormedItems, Json.WellFormedMembers]
  refine ⟨hd, ?_⟩
  obtain ⟨-, -, -, -, -, hcollects, -⟩ :=
    @document_visits_in_turn .dashboard joinedDashboard hd [⟨.tabs, some "Main"⟩]
  have hcollect := hcollects Id String _ fun trail _ => pure [trail.reverse.map (·.kind)]
  exact (congrArg Id.run hcollect).trans rfl

end Traversal

end Rehome
