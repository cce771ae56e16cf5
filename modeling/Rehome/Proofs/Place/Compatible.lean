import Rehome.Label.Document

/-! # Walks in related monads

A walk is written once for all monads, so it can only compose the visits it is given. A relation between
the computations of two monads that is kept by composition therefore holds between two walks as soon as
it holds between their visits. Invariants, bounds on what may come out of a walk, and changes of the monad
that it runs in are all obtained from such relations. -/

namespace Rehome

variable {m n : Type → Type} [Monad m] [Monad n]

/-- A relation between computations of two monads that composition keeps. -/
structure Compatible (R : (α : Type) → m α → n α → Prop) : Prop where
  pure {α : Type} (a : α) : R α (pure a) (pure a)
  bind {α β : Type} {x : m α} {y : n α} {f : α → m β} {g : α → n β} :
    R α x y → (∀ a, R β (f a) (g a)) → R β (x >>= f) (y >>= g)

namespace Compatible

variable {R : (α : Type) → m α → n α → Prop} (hR : Compatible R)

include hR

theorem map [LawfulMonad m] [LawfulMonad n] {α β : Type} {x : m α} {y : n α} (h : R _ x y)
    (f : α → β) : R _ (f <$> x) (f <$> y) := by
  rw [map_eq_pure_bind, map_eq_pure_bind]
  exact hR.bind h fun a => hR.pure (f a)

theorem mapM_mem [LawfulMonad m] [LawfulMonad n] {α β : Type} {f : α → m β} {g : α → n β} {as : List α}
    (h : ∀ a ∈ as, R _ (f a) (g a)) : R _ (as.mapM f) (as.mapM g) := by
  induction as with
  | nil => simpa using hR.pure []
  | cons a as ih =>
    obtain ⟨ha, has⟩ := List.forall_mem_cons.1 h
    rw [List.mapM_cons, List.mapM_cons]
    exact hR.bind ha fun b => hR.bind (ih has) fun bs => hR.pure (b :: bs)

theorem mapM [LawfulMonad m] [LawfulMonad n] {α β : Type} {f : α → m β} {g : α → n β}
    (h : ∀ a, R _ (f a) (g a)) (as : List α) : R _ (as.mapM f) (as.mapM g) :=
  hR.mapM_mem fun a _ => h a

theorem forM_mem {α : Type} {f : α → m Unit} {g : α → n Unit} {as : List α}
    (h : ∀ a ∈ as, R _ (f a) (g a)) : R _ (as.forM f) (as.forM g) := by
  induction as with
  | nil => exact hR.pure ()
  | cons a as ih =>
    obtain ⟨ha, has⟩ := List.forall_mem_cons.1 h
    exact hR.bind ha fun _ => ih has

theorem forM {α : Type} {f : α → m Unit} {g : α → n Unit} (h : ∀ a, R _ (f a) (g a)) (as : List α) :
    R _ (as.forM f) (as.forM g) :=
  hR.forM_mem fun a _ => h a

/-! ## Values -/

section Values

variable {f : Json → m Json} {g : Json → n Json}

theorem onMember (key : String) (h : ∀ j, R _ (f j) (g j)) (j : Json) :
    R _ (j.onMember key f) (j.onMember key g) := by
  cases j with
  | obj members =>
    rw [Json.onMember, Json.onMember]
    split
    · exact hR.bind (h _) fun value => hR.pure _
    · exact hR.pure _
  | _ => exact hR.pure _

theorem onMembers [LawfulMonad m] [LawfulMonad n] {f : String → Json → m Json}
    {g : String → Json → n Json} (h : ∀ key j, R _ (f key j) (g key j)) (j : Json) :
    R _ (j.onMembers f) (j.onMembers g) := by
  cases j with
  | obj members =>
    exact hR.bind (hR.mapM (fun p => hR.bind (h p.1 p.2) fun value => hR.pure _) members)
      fun members => hR.pure _
  | _ => exact hR.pure _

theorem onItems [LawfulMonad m] [LawfulMonad n] (h : ∀ j, R _ (f j) (g j)) (j : Json) :
    R _ (j.onItems f) (j.onItems g) := by
  cases j with
  | arr items => exact hR.bind (hR.mapM h items) fun items => hR.pure _
  | _ => exact hR.pure _

theorem unlessNull (h : ∀ j, R _ (f j) (g j)) (j : Json) : R _ (j.unlessNull f) (j.unlessNull g) := by
  cases j with
  | null => exact hR.pure _
  | _ => exact h _

theorem onObj (h : ∀ j, R _ (f j) (g j)) (j : Json) : R _ (j.onObj f) (j.onObj g) := by
  cases j with
  | obj members => exact h _
  | _ => exact hR.pure _

theorem onArr (h : ∀ j, R _ (f j) (g j)) (j : Json) : R _ (j.onArr f) (j.onArr g) := by
  cases j with
  | arr items => exact h _
  | _ => exact hR.pure _

theorem onStr {f : String → m String} {g : String → n String} (h : ∀ s, R _ (f s) (g s)) (j : Json) :
    R _ (j.onStr f) (j.onStr g) := by
  cases j with
  | str s => exact hR.bind (h s) fun s => hR.pure _
  | _ => exact hR.pure _

end Values

/-! ## Text slots -/

theorem mapSlots [LawfulMonad m] [LawfulMonad n] {f : String → m String} {g : String → n String}
    (h : ∀ s, R _ (f s) (g s)) (trail : Trail) (j : Json) :
    R _ (Label.mapSlots f trail j) (Label.mapSlots g trail j) := by
  rw [Label.mapSlots, Label.mapSlots]
  cases Label.layoutAt trail with
  | members accepts =>
    rw [Label.Layout.mapSlots, Label.Layout.mapSlots]
    refine hR.onMembers (fun key value => ?_) j
    split
    · exact hR.onStr h value
    · exact hR.pure value
  | ofMembers key => exact hR.onMembers (fun _ => hR.onMember key (hR.onStr h)) j
  | ofItems key => exact hR.onItems (hR.onMember key (hR.onStr h)) j
  | none => exact hR.pure j

/-! ## Walks -/

omit hR in
mutual

theorem query [LawfulMonad m] [LawfulMonad n] {f : Trail → Json → m Json}
    {g : Trail → Json → n Json} (hR : Compatible R) (h : ∀ trail j, R _ (f trail j) (g trail j))
    (trail : Trail) : (j : Json) → R _ (Walk.query f trail j) (Walk.query g trail j)
  | .obj members => by
    rw [Walk.query, Walk.query]
    exact hR.bind (nestedQuery hR h _ members) fun _ => hR.bind (joinsOf hR h _ members) fun _ => h _ _
  | .null | .bool _ | .int _ | .double _ | .str _ | .arr _ => by
    simpa only [Walk.query] using hR.pure _

theorem nestedQuery [LawfulMonad m] [LawfulMonad n] {f : Trail → Json → m Json}
    {g : Trail → Json → n Json} (hR : Compatible R) (h : ∀ trail j, R _ (f trail j) (g trail j))
    (trail : Trail) : (members : List (String × Json)) →
    R _ (Walk.nestedQuery f trail members) (Walk.nestedQuery g trail members)
  | [] => by simpa only [Walk.nestedQuery] using hR.pure _
  | (key, j) :: rest => by
    rw [Walk.nestedQuery, Walk.nestedQuery]
    split
    · split
      · exact hR.map (query hR h trail j) some
      · exact hR.pure _
    · exact nestedQuery hR h trail rest

theorem joinsOf [LawfulMonad m] [LawfulMonad n] {f : Trail → Json → m Json}
    {g : Trail → Json → n Json} (hR : Compatible R) (h : ∀ trail j, R _ (f trail j) (g trail j))
    (trail : Trail) : (members : List (String × Json)) →
    R _ (Walk.joinsOf f trail members) (Walk.joinsOf g trail members)
  | [] => by simpa only [Walk.joinsOf] using hR.pure _
  | (key, j) :: rest => by
    rw [Walk.joinsOf, Walk.joinsOf]
    split
    · exact joinList hR h trail j
    · exact joinsOf hR h trail rest

theorem joinList [LawfulMonad m] [LawfulMonad n] {f : Trail → Json → m Json}
    {g : Trail → Json → n Json} (hR : Compatible R) (h : ∀ trail j, R _ (f trail j) (g trail j))
    (trail : Trail) : (j : Json) →
    R _ (Walk.joinList f trail j) (Walk.joinList g trail j)
  | .arr items => by
    rw [Walk.joinList, Walk.joinList]
    exact hR.map (joins hR h trail items) _
  | .null | .bool _ | .int _ | .double _ | .str _ | .obj _ => by
    simpa only [Walk.joinList] using hR.pure _

theorem joins [LawfulMonad m] [LawfulMonad n] {f : Trail → Json → m Json}
    {g : Trail → Json → n Json} (hR : Compatible R) (h : ∀ trail j, R _ (f trail j) (g trail j))
    (trail : Trail) : (items : List Json) →
    R _ (Walk.joins f trail items) (Walk.joins g trail items)
  | [] => by simpa only [Walk.joins] using hR.pure _
  | j :: rest => by
    rw [Walk.joins, Walk.joins]
    exact hR.bind (join hR h trail j) fun _ => hR.bind (joins hR h trail rest) fun _ => hR.pure _

theorem join [LawfulMonad m] [LawfulMonad n] {f : Trail → Json → m Json}
    {g : Trail → Json → n Json} (hR : Compatible R) (h : ∀ trail j, R _ (f trail j) (g trail j))
    (trail : Trail) : (j : Json) → R _ (Walk.join f trail j) (Walk.join g trail j)
  | .obj members => by
    rw [Walk.join, Walk.join]
    exact hR.bind (nestedQuery hR h _ members) fun _ => h _ _
  | .null | .bool _ | .int _ | .double _ | .str _ | .arr _ => by
    simpa only [Walk.join] using hR.pure _

end

section Walks

variable [LawfulMonad m] [LawfulMonad n] {f : Trail → Json → m Json} {g : Trail → Json → n Json}
  (h : ∀ trail j, R _ (f trail j) (g trail j))

include h

theorem settings (trail : Trail) (j : Json) : R _ (Walk.settings f trail j) (Walk.settings g trail j) :=
  hR.bind (hR.onMember _ (hR.onObj (h _)) j) fun j =>
  hR.bind (hR.onMember _ (hR.onArr (h _)) j) fun j =>
  hR.bind (hR.onMember _ (hR.onMembers fun _ => hR.onMember _ (hR.onObj (h _))) j) fun j =>
  hR.bind (hR.onMember _ (hR.onObj (h _)) j) fun j =>
  hR.bind (hR.onMember _ (hR.onObj (h _)) j) fun j => h _ j

theorem card (trail : Trail) (j : Json) : R _ (Walk.card f trail j) (Walk.card g trail j) :=
  hR.bind (hR.onMember _ (hR.onObj (hR.settings h _)) j) fun j =>
  hR.bind (hR.onMember _ (hR.onMember _ (hR.onObj (hR.query h _))) j) fun j =>
  hR.bind (hR.onMember _ (hR.onItems (hR.onObj (h _))) j) fun j => h _ j

theorem dashboard (trail : Trail) (j : Json) : R _ (Walk.dashboard f trail j) (Walk.dashboard g trail j) :=
  hR.bind (hR.onMember _ (hR.onItems (hR.onObj (hR.card h _))) j) fun j =>
  hR.bind (hR.onMember _ (hR.onArr (h _)) j) fun j =>
  hR.bind (hR.onMember _ (hR.onItems (hR.onObj fun j => h _ j)) j) fun j =>
  hR.bind (hR.onMember _ (hR.unlessNull (h _)) j) fun j =>
  hR.bind (hR.onMember _ (hR.unlessNull (h _)) j) fun j => h _ j

/-- Walks of a document are related when their visits are. -/
theorem document (kind : EntityKind) (trail : Trail) (j : Json) :
    R _ (Walk.document kind f trail j) (Walk.document kind g trail j) := by
  cases kind with
  | card => exact hR.card h trail j
  | dashboard => exact hR.dashboard h trail j

end Walks

end Compatible

/-- A property of computations that composition keeps. -/
structure Closed (K : (α : Type) → m α → Prop) : Prop where
  pure {α : Type} (a : α) : K α (pure a)
  bind {α β : Type} {x : m α} {f : α → m β} : K α x → (∀ a, K β (f a)) → K β (x >>= f)

namespace Closed

variable {K : (α : Type) → m α → Prop}

/-- A property is a relation to the computations of any other monad. -/
theorem compatible (hK : Closed K) : Compatible (n := n) fun α x _ => K α x :=
  ⟨hK.pure, hK.bind⟩

variable [LawfulMonad m] (hK : Closed K)

include hK

theorem mapM_mem {α β : Type} {f : α → m β} {as : List α} (h : ∀ a ∈ as, K _ (f a)) :
    K _ (as.mapM f) :=
  hK.compatible.mapM_mem (g := f) h

omit [LawfulMonad m] in
theorem forM_mem {α : Type} {f : α → m Unit} {as : List α} (h : ∀ a ∈ as, K _ (f a)) :
    K _ (as.forM f) :=
  hK.compatible.forM_mem (g := f) h

omit [LawfulMonad m] in
theorem forM {α : Type} {f : α → m Unit} (h : ∀ a, K _ (f a)) (as : List α) : K _ (as.forM f) :=
  hK.forM_mem fun a _ => h a

section Values

variable {f : Json → m Json}

omit [LawfulMonad m] in
theorem onMember (key : String) (h : ∀ j, K _ (f j)) (j : Json) : K _ (j.onMember key f) :=
  hK.compatible.onMember (g := f) key h j

theorem onItems (h : ∀ j, K _ (f j)) (j : Json) : K _ (j.onItems f) :=
  hK.compatible.onItems (g := f) h j

omit [LawfulMonad m] in
theorem unlessNull (h : ∀ j, K _ (f j)) (j : Json) : K _ (j.unlessNull f) :=
  hK.compatible.unlessNull (g := f) h j

end Values

theorem mapSlots {f : String → m String} (h : ∀ s, K _ (f s)) (trail : Trail) (j : Json) :
    K _ (Label.mapSlots f trail j) :=
  hK.compatible.mapSlots (g := f) h trail j

/-- A walk has a property when its visits have it. -/
theorem document {f : Trail → Json → m Json} (h : ∀ trail j, K _ (f trail j)) (kind : EntityKind)
    (trail : Trail) (j : Json) : K _ (Walk.document kind f trail j) :=
  hK.compatible.document (g := f) h kind trail j

end Closed

end Rehome
