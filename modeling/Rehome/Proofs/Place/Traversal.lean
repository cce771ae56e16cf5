import Mathlib.Data.List.Sort
import Mathlib.Tactic.Choose
import Rehome.Place.Traversal
import Rehome.Proofs.Place.Compatible

/-! # Traversals are walks

A traversal keeps its place in one stack, and merges what it has collected part by part. The stack is the trail
that a walk hands down, and it is afterwards what it was before, also when a visit has failed
(`document_performs`). Where merging is associative it does not matter that the results are bracketed as the
document is, so a traversal collects what a walk does (`document_eq_collect`). -/

namespace Rehome

/-! ## Sets of texts -/

namespace TextSet

variable {a b : TextSet}

theorem ext (h : ∀ t, t ∈ a.elements ↔ t ∈ b.elements) : a = b := by
  obtain ⟨as, has⟩ := a
  obtain ⟨bs, hbs⟩ := b
  obtain rfl : as = bs := has.eq_of_mem_iff hbs h
  rfl

theorem mem_merge {t : String} : t ∈ (Mergeable.merge a b).elements ↔ t ∈ a.elements ∨ t ∈ b.elements :=
  mem_unionSorted

instance : LawfulMergeable TextSet where
  empty_merge a := ext fun t => mem_merge.trans (or_iff_right List.not_mem_nil)
  merge_empty a := ext fun t => mem_merge.trans (or_iff_left List.not_mem_nil)
  merge_assoc a b c := ext fun t => by rw [mem_merge, mem_merge, mem_merge, mem_merge, or_assoc]

end TextSet

namespace Traversal

variable {α β ε : Type} {m : Type → Type} [Monad m]

/-! ## The stack and the results -/

section Apply

variable {trail : Trail} {kind : PlaceKind} {title : Option String}

theorem bind_apply {γ : Type} (x : Gathering α ε m β) (f : β → Gathering α ε m γ) (out : α) :
    (x >>= f) out trail =
      x out trail >>= fun p => ExceptT.bindCont (fun q : β × α => f q.1 q.2) p.1 p.2 := rfl

variable [LawfulMonad m]

theorem within_apply (act : Stacked ε m β) :
    within kind title act trail = (fun p => (p.1, p.2.pop)) <$> act (trail.push kind title) :=
  (map_eq_pure_bind _ _).symm

variable [Mergeable α]

theorem merged_apply (part : Stacked ε m (α × Json)) (out : α) : merged part out trail =
    (fun p => (p.1.map fun r => (r.2, Mergeable.merge out r.1), p.2)) <$> part trail := by
  rw [map_eq_pure_bind]
  refine bind_congr fun p => ?_
  obtain ⟨e | r, t⟩ := p <;> rfl

theorem collected_apply (act : Gathering α ε m Json) :
    collected act trail = (fun p => (p.1.map Prod.swap, p.2)) <$> act Mergeable.empty trail := by
  rw [map_eq_pure_bind]
  refine bind_congr fun p => ?_
  obtain ⟨e | r, t⟩ := p <;> rfl

theorem merged_within (part : Stacked ε m (α × Json)) :
    merged (within kind title part) = inside kind title (merged part) := by
  funext out trail
  rw [merged_apply, within_apply, inside, within_apply, merged_apply, Functor.map_map, Functor.map_map]

end Apply

/-! ## Relations of traversals to walks -/

section Relations

variable [Mergeable α]

/-- A traversal follows a walk in a relation of computations with a stack to those of the walk, one for each
stack that they may start with. Composition keeps it, and so does it to be inside of a place or to be a part
with a result of its own; and the visits are related. -/
structure Follows {n : Type → Type} [Monad n] (R : Trail → (β : Type) → Gathering α ε m β → n β → Prop)
    (visit : Trail → Json → ExceptT ε m (α × Json)) (act : Trail → Json → n Json) : Prop where
  compatible (trail : Trail) : Compatible (R trail)
  inside {trail : Trail} {kind : PlaceKind} {title : Option String} {x : Gathering α ε m Json}
    {y : n Json} : R (trail.push kind title) Json x y → R trail Json (inside kind title x) y
  part {trail : Trail} {x : Gathering α ε m Json} {y : n Json} :
    R trail Json x y → R trail Json (merged (collected x)) y
  here (trail : Trail) (j : Json) : R trail Json (merged (here visit j)) (act trail j)

namespace Follows

variable {n : Type → Type} [Monad n] {R : Trail → (β : Type) → Gathering α ε m β → n β → Prop}
  {visit : Trail → Json → ExceptT ε m (α × Json)} {act : Trail → Json → n Json}

/-! ### Queries -/

mutual

theorem query [LawfulMonad m] [LawfulMonad n] (hR : Follows R visit act)
    (trail : Trail) : (j : Json) → R trail Json (merged (query visit j)) (Walk.query act trail j)
  | .obj members => by
    rw [Traversal.query, Walk.query, merged_within]
    refine hR.inside (hR.part ?_)
    refine (hR.compatible _).bind (nestedQuery hR _ members) fun _ => ?_
    exact (hR.compatible _).bind (joinsOf hR _ members) fun _ => hR.here _ _
  | .null | .bool _ | .int _ | .double _ | .str _ | .arr _ => by
    simpa only [Traversal.query, Walk.query] using hR.part ((hR.compatible trail).pure _)

theorem nestedQuery [LawfulMonad m] [LawfulMonad n] (hR : Follows R visit act)
    (trail : Trail) : (members : List (String × Json)) →
    R trail _ (nestedQuery visit members) (Walk.nestedQuery act trail members)
  | [] => by simpa only [Traversal.nestedQuery, Walk.nestedQuery] using (hR.compatible trail).pure _
  | (key, j) :: rest => by
    rw [Traversal.nestedQuery, Walk.nestedQuery]
    split
    · split
      · exact (hR.compatible trail).map (query hR trail j) some
      · exact (hR.compatible trail).pure _
    · exact nestedQuery hR trail rest

theorem joinsOf [LawfulMonad m] [LawfulMonad n] (hR : Follows R visit act)
    (trail : Trail) : (members : List (String × Json)) →
    R trail _ (joinsOf visit members) (Walk.joinsOf act trail members)
  | [] => by simpa only [Traversal.joinsOf, Walk.joinsOf] using (hR.compatible trail).pure _
  | (key, j) :: rest => by
    rw [Traversal.joinsOf, Walk.joinsOf]
    split
    · exact joinList hR trail j
    · exact joinsOf hR trail rest

theorem joinList [LawfulMonad m] [LawfulMonad n] (hR : Follows R visit act)
    (trail : Trail) : (j : Json) → R trail _ (joinList visit j) (Walk.joinList act trail j)
  | .arr items => by
    rw [Traversal.joinList, Walk.joinList]
    exact (hR.compatible trail).map (joins hR trail items) _
  | .null | .bool _ | .int _ | .double _ | .str _ | .obj _ => by
    simpa only [Traversal.joinList, Walk.joinList] using (hR.compatible trail).pure _

theorem joins [LawfulMonad m] [LawfulMonad n] (hR : Follows R visit act)
    (trail : Trail) : (items : List Json) → R trail _ (joins visit items) (Walk.joins act trail items)
  | [] => by simpa only [Traversal.joins, Walk.joins] using (hR.compatible trail).pure _
  | j :: rest => by
    rw [Traversal.joins, Walk.joins]
    refine (hR.compatible trail).bind (join hR trail j) fun _ => ?_
    exact (hR.compatible trail).bind (joins hR trail rest) fun _ => (hR.compatible trail).pure _

theorem join [LawfulMonad m] [LawfulMonad n] (hR : Follows R visit act)
    (trail : Trail) : (j : Json) → R trail Json (join visit j) (Walk.join act trail j)
  | .obj members => by
    rw [Traversal.join, Walk.join]
    exact hR.inside ((hR.compatible _).bind (nestedQuery hR _ members) fun _ => hR.here _ _)
  | .null | .bool _ | .int _ | .double _ | .str _ | .arr _ => by
    simpa only [Traversal.join, Walk.join] using (hR.compatible trail).pure _

end

/-! ### Cards and dashboards -/

variable [LawfulMonad m] (hR : Follows R visit act)

include hR

theorem place (kind : PlaceKind) (title : Option String) (trail : Trail) (j : Json) :
    R trail Json (place visit kind title j) (act (trail.push kind title) j) := by
  rw [Traversal.place, merged_within]
  exact hR.inside (hR.here _ j)

theorem columnClick (trail : Trail) (key : String) (j : Json) :
    R trail Json (columnClick visit key j) (Walk.columnClick act trail key j) := by
  refine (hR.compatible trail).onMember _ ((hR.compatible trail).onObj fun click => ?_) j
  rw [merged_within, merged_within]
  exact hR.inside (hR.inside (hR.here _ click))

variable [LawfulMonad n]

theorem settings (trail : Trail) (j : Json) :
    R trail Json (merged (settings visit j)) (Walk.settings act trail j) := by
  rw [Traversal.settings, merged_within]
  have hc := hR.compatible (trail.push .visualizationSettings none)
  refine hR.inside (hR.part ?_)
  refine hc.bind (hc.onMember _ (hc.onObj (hR.place _ _ _)) j) fun j => ?_
  refine hc.bind (hc.onMember _ (hc.onArr (hR.place _ _ _)) j) fun j => ?_
  refine hc.bind (hc.onMember _ (hc.onMembers (hR.columnClick _)) j) fun j => ?_
  refine hc.bind (hc.onMember _ (hc.onObj (hR.place _ _ _)) j) fun j => ?_
  exact hc.bind (hc.onMember _ (hc.onObj (hR.place _ _ _)) j) fun j => hR.here _ j

theorem card (trail : Trail) (j : Json) : R trail Json (merged (card visit j)) (Walk.card act trail j) := by
  rw [Traversal.card, merged_within]
  have hc := hR.compatible (trail.push .card (Walk.cardTitle j))
  refine hR.inside (hR.part ?_)
  refine hc.bind (hc.onMember _ (hc.onObj (hR.settings _)) j) fun j => ?_
  refine hc.bind (hc.onMember _ (hc.onMember _ (hc.onObj (hR.query _))) j) fun j => ?_
  exact hc.bind (hc.onMember _ (hc.onItems (hc.onObj (hR.place _ _ _))) j) fun j => hR.here _ j

theorem dashboard (trail : Trail) (j : Json) :
    R trail Json (merged (dashboard visit j)) (Walk.dashboard act trail j) := by
  rw [Traversal.dashboard, merged_within]
  have hc := hR.compatible (trail.push .dashboard (j.text? "name"))
  refine hR.inside (hR.part ?_)
  refine hc.bind (hc.onMember _ (hc.onItems (hc.onObj (hR.card _))) j) fun j => ?_
  refine hc.bind (hc.onMember _ (hc.onArr (hR.place _ _ _)) j) fun j => ?_
  refine hc.bind (hc.onMember _ (hc.onItems (hc.onObj fun j => hR.place _ _ _ j)) j) fun j => ?_
  refine hc.bind (hc.onMember _ (hc.unlessNull (hR.place _ _ _)) j) fun j => ?_
  exact hc.bind (hc.onMember _ (hc.unlessNull (hR.place _ _ _)) j) fun j => hR.here _ j

/-- A traversal is related to a walk when its visits are. -/
theorem document (kind : EntityKind) (trail : Trail) (j : Json) :
    R trail Json (merged (document kind visit j)) (Walk.document kind act trail j) := by
  cases kind with
  | card => exact hR.card trail j
  | dashboard => exact hR.dashboard trail j

end Follows

end Relations

/-! ## The stack of a traversal -/

variable [LawfulMonad m] {trail : Trail}

/-- The computation leaves the stack as it is, and comes to `y` apart from it. -/
def Shows (trail : Trail) (x : Gathering α ε m β) (y : StateT α (ExceptT ε m) β) : Prop :=
  ∀ out, x out trail = (fun r => (r, trail)) <$> (y out).run

theorem compatible_shows (trail : Trail) :
    Compatible fun β (x : Gathering α ε m β) (y : StateT α (ExceptT ε m) β) => Shows trail x y where
  pure {β} b out := (map_pure (fun r : Except ε (β × α) => (r, trail)) (.ok (b, out))).symm
  bind {β γ x y f g} hx hf out := by
    show _ = (fun r => (r, trail)) <$> ((y out).run >>= ExceptT.bindCont fun q => g q.1 q.2)
    rw [bind_apply, hx, map_bind, bind_map_left]
    refine bind_congr fun r => ?_
    obtain e | q := r
    · exact (map_pure (fun r : Except ε (γ × α) => (r, trail)) (.error e)).symm
    · exact hf q.1 q.2

theorem Shows.inside {kind : PlaceKind} {title : Option String} {x : Gathering α ε m β}
    {y : StateT α (ExceptT ε m) β} (h : Shows (trail.push kind title) x y) :
    Shows trail (inside kind title x) y := by
  intro out
  rw [Traversal.inside, within_apply, h, Functor.map_map]
  rfl

variable [Mergeable α]

theorem Shows.part {x : Gathering α ε m Json} {y : StateT α (ExceptT ε m) Json} (h : Shows trail x y) :
    Shows trail (merged (collected x))
      fun out => Prod.map id (Mergeable.merge out) <$> y Mergeable.empty := by
  intro out
  rw [merged_apply, collected_apply, h, Functor.map_map, Functor.map_map, ExceptT.run_map, Functor.map_map]
  refine map_congr fun r => ?_
  obtain e | q := r <;> rfl

theorem collecting_apply (visit : Trail → Json → ExceptT ε m (α × Json)) (trail : Trail) (j : Json)
    (out : α) : Walk.collecting visit trail j out =
      (fun r => (r.2, Mergeable.merge out r.1)) <$> visit trail j :=
  (map_eq_pure_bind _ _).symm

theorem shows_here (visit : Trail → Json → ExceptT ε m (α × Json)) (trail : Trail) (j : Json) :
    Shows trail (merged (here visit j)) (Walk.collecting visit trail j) := by
  intro out
  have hhere : here visit j trail = (fun r => (r, trail)) <$> (visit trail j).run :=
    (map_eq_pure_bind _ _).symm
  rw [merged_apply, hhere, collecting_apply, ExceptT.run_map, Functor.map_map, Functor.map_map]

/-! ## Whatever is collected -/

/-- The computation leaves the stack as it is, and comes to `y` apart from it and from what is collected. -/
def Performs (trail : Trail) (x : Gathering α ε m β) (y : ExceptT ε m β) : Prop :=
  ∃ z, Shows trail x z ∧ ∀ out, Prod.fst <$> z out = y

theorem follows_performs (visit : Trail → Json → ExceptT ε m (α × Json)) :
    Follows (fun trail β (x : Gathering α ε m β) y => Performs trail x y) visit
      fun trail j => Prod.snd <$> visit trail j where
  compatible trail :=
    { pure b := ⟨_, (compatible_shows trail).pure b, fun out => map_pure _ _⟩
      bind {β γ x y f g} hx hf := by
        obtain ⟨z, hz, hy⟩ := hx
        choose w hw hg using hf
        refine ⟨z >>= w, (compatible_shows trail).bind hz hw, fun out => ?_⟩
        show Prod.fst <$> (z out >>= fun q => w q.1 q.2) = _
        rw [map_bind, ← hy out, bind_map_left]
        exact bind_congr fun q => hg q.1 q.2 }
  inside := fun ⟨z, hz, hy⟩ => ⟨z, hz.inside, hy⟩
  part := fun ⟨z, hz, hy⟩ => ⟨_, hz.part, fun out => by rw [Functor.map_map]; exact hy _⟩
  here trail j := ⟨_, shows_here visit trail j, fun out => by rw [collecting_apply, Functor.map_map]⟩

/-- Whatever is collected, a traversal visits what a walk visits, in turn and with the stack as the trail, and
leaves the stack as it is. -/
theorem document_performs (kind : EntityKind) (visit : Trail → Json → ExceptT ε m (α × Json))
    (trail : Trail) (j : Json) :
    (fun p => (p.1.map Prod.snd, p.2)) <$> document kind visit j trail =
      (fun r => (r, trail)) <$>
        (Walk.document kind (fun trail j => Prod.snd <$> visit trail j) trail j).run := by
  obtain ⟨z, hz, hy⟩ := (follows_performs visit).document kind trail j
  rw [← hy Mergeable.empty, ExceptT.run_map, Functor.map_map]
  have hforget := congrArg (fun x => (fun p : Except ε (Json × α) × Trail => (p.1.map Prod.fst, p.2)) <$> x)
    (hz Mergeable.empty)
  simp only [merged_apply, Functor.map_map] at hforget
  rw [← hforget]
  refine map_congr fun p => ?_
  obtain ⟨e | r, t⟩ := p <;> rfl

/-- What a traversal with a stack of its own makes of a document is what a walk makes of it. -/
theorem run_performs (kind : EntityKind) (visit : Trail → Json → ExceptT ε m (α × Json)) (j : Json) :
    Prod.snd <$> run kind visit j =
      Walk.document kind (fun trail j => Prod.snd <$> visit trail j) [] j := by
  have hrun : (run kind visit j).run = Prod.fst <$> document kind visit j [] := (map_eq_pure_bind _ _).symm
  have hdocument := congrArg (fun x => Prod.fst <$> x) (document_performs kind visit [] j)
  simp only [Functor.map_map, id_map'] at hdocument
  refine ExceptT.ext ?_
  rw [ExceptT.run_map, hrun, Functor.map_map]
  exact hdocument

/-! ## Results that may be bracketed -/

section Lawful

variable [LawfulMergeable α]

/-- What the computation collects is added to what has been collected. -/
def Adds (y : StateT α (ExceptT ε m) β) : Prop :=
  ∀ out, y out = Prod.map id (Mergeable.merge out) <$> y Mergeable.empty

theorem closed_adds : Closed fun β (y : StateT α (ExceptT ε m) β) => Adds y where
  pure {β} b out := by
    show (pure (b, out) : ExceptT ε m (β × α)) =
      Prod.map id (Mergeable.merge out) <$> pure (b, Mergeable.empty)
    rw [map_pure, Prod.map_apply, LawfulMergeable.merge_empty]
    rfl
  bind {β γ y g} hy hg out := by
    show (y out >>= fun q => g q.1 q.2) =
      Prod.map id (Mergeable.merge out) <$> (y Mergeable.empty >>= fun q => g q.1 q.2)
    rw [hy out, bind_map_left, map_bind]
    refine bind_congr fun q => ?_
    show g q.1 (Mergeable.merge out q.2) = _
    rw [hg q.1 (Mergeable.merge out q.2), hg q.1 q.2, Functor.map_map]
    refine map_congr fun r => ?_
    simp only [Prod.map, id, LawfulMergeable.merge_assoc]

theorem follows_collecting (visit : Trail → Json → ExceptT ε m (α × Json)) :
    Follows (fun trail β (x : Gathering α ε m β) (y : StateT α (ExceptT ε m) β) => Shows trail x y ∧ Adds y)
      visit (Walk.collecting visit) where
  compatible trail :=
    { pure b := ⟨(compatible_shows trail).pure b, closed_adds.pure b⟩
      bind hx hf := ⟨(compatible_shows trail).bind hx.1 fun b => (hf b).1,
        closed_adds.bind hx.2 fun b => (hf b).2⟩ }
  inside h := ⟨h.1.inside, h.2⟩
  part h := ⟨fun out => by rw [h.2 out]; exact h.1.part out, h.2⟩
  here trail j := by
    refine ⟨shows_here visit trail j, fun out => ?_⟩
    rw [collecting_apply, collecting_apply, Functor.map_map]
    simp only [Prod.map, id, LawfulMergeable.empty_merge]

/-- A traversal collects what a walk does, and leaves the stack as it is. -/
theorem document_eq_collect (kind : EntityKind) (visit : Trail → Json → ExceptT ε m (α × Json))
    (trail : Trail) (j : Json) :
    document kind visit j trail =
      (fun r => (r, trail)) <$> (Walk.collect (Walk.document kind) visit trail j).run := by
  have hcollect : Walk.collect (Walk.document kind) visit trail j =
      Prod.swap <$> Walk.document kind (Walk.collecting visit) trail j Mergeable.empty :=
    (map_eq_pure_bind _ _).symm
  have hshows := ((follows_collecting visit).document kind trail j).1 Mergeable.empty
  have hswap := congrArg (fun x => (fun p : Except ε (Json × α) × Trail => (p.1.map Prod.swap, p.2)) <$> x)
    hshows
  simp only [merged_apply, Functor.map_map] at hswap
  rw [hcollect, ExceptT.run_map, Functor.map_map, ← hswap]
  symm
  refine (map_congr fun p => ?_).trans (id_map _)
  obtain ⟨e | r, t⟩ := p
  · rfl
  · show (Except.ok (Mergeable.merge Mergeable.empty r.1, r.2), t) = _
    rw [LawfulMergeable.empty_merge]
    rfl

/-- A traversal with a stack of its own is a walk. -/
theorem run_eq_collect (kind : EntityKind) (visit : Trail → Json → ExceptT ε m (α × Json)) (j : Json) :
    run kind visit j = Walk.collect (Walk.document kind) visit [] j := by
  show (document kind visit j [] >>= fun p => pure p.1) = (Walk.collect (Walk.document kind) visit [] j).run
  rw [document_eq_collect, bind_map_left]
  exact bind_pure _

omit [Mergeable α] [LawfulMergeable α] in
/-- Computations that do not fail where others may. -/
theorem compatible_ok : Compatible fun β (x : StateT α (ExceptT Empty m) β) (y : StateT α m β) =>
    ∀ out, (x out).run = Except.ok <$> y out where
  pure b out := (map_pure Except.ok (b, out)).symm
  bind {β γ x y f g} hx hf out := by
    show (x out).run >>= ExceptT.bindCont (fun q => f q.1 q.2) = Except.ok <$> (y out >>= fun q => g q.1 q.2)
    rw [hx, bind_map_left, map_bind]
    exact bind_congr fun q => hf q.1 q.2

/-- With visits that cannot fail, a traversal is a walk. -/
theorem runSurely_eq_collect (kind : EntityKind) (visit : Trail → Json → m (α × Json)) (j : Json) :
    runSurely kind visit j = Walk.collect (Walk.document kind) visit [] j := by
  let lifted (trail : Trail) (j : Json) : ExceptT Empty m (α × Json) := ExceptT.lift (visit trail j)
  have hvisit (trail : Trail) (j : Json) (out : α) :
      (Walk.collecting lifted trail j out).run = Except.ok <$> Walk.collecting visit trail j out := by
    rw [collecting_apply, ExceptT.run_map, ExceptT.run_lift, Functor.map_map, Walk.collecting, map_bind]
    simp only [map_pure]
    exact map_eq_pure_bind _ _
  have hwalk := compatible_ok.document hvisit kind [] j Mergeable.empty
  have hcollect : (Walk.collect (Walk.document kind) lifted [] j).run =
      Except.ok <$> Walk.collect (Walk.document kind) visit [] j := by
    show (Walk.document kind (Walk.collecting lifted) [] j Mergeable.empty).run >>= ExceptT.bindCont _ = _
    rw [hwalk, bind_map_left, Walk.collect, map_bind]
    exact bind_congr fun q => (map_pure Except.ok (q.2, q.1)).symm
  rw [runSurely, run_eq_collect]
  show (Walk.collect (Walk.document kind) lifted [] j).run >>= _ = _
  rw [hcollect, bind_map_left]
  exact bind_pure _

end Lawful

end Traversal

end Rehome
