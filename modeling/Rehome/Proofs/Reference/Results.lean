import Rehome.Proofs.Json.Settled
import Rehome.Proofs.Place.Reach
import Rehome.Reference.Place

/-! # Results of plans

A plan has a result if it succeeds and needs no card but the available ones. Results are composed as plans
are, so a walk that makes plans has the results of the walk on sets. -/

namespace Rehome

attribute [local instance] Set.monad

/-- The result of a plan that succeeds and needs no card but the available ones. -/
def Plan.results {α : Type} (available : Set CardId) (p : Plan α) : Set α :=
  {a | p.outcome = .ok a ∧ ∀ c ∈ p.needs, c ∈ available}

namespace Plan

variable {α : Type} {available : Set CardId}

theorem compatible_results :
    Compatible fun α (p : Plan α) (s : Set α) => p.results available = s where
  pure a := by
    ext b
    simp [results, eq_comm]
  bind {α β p s f g} hp hf := by
    subst hp
    ext b
    rw [Json.mem_bind]
    cases h : p.outcome with
    | error e => simp [results, bind_of_error h, h]
    | ok a =>
      rw [results, Set.mem_ofPred_eq, bind_of_ok h]
      simp only [← hf, results, h, Set.mem_ofPred_eq, List.mem_append]
      constructor
      · rintro ⟨hok, hneeds⟩
        exact ⟨a, ⟨rfl, fun c hc => hneeds c (.inl hc)⟩, hok, fun c hc => hneeds c (.inr hc)⟩
      · rintro ⟨a', ⟨ha, hneeds⟩, hok, hneeds'⟩
        obtain rfl : a = a' := by simpa using ha
        exact ⟨hok, fun c hc => hc.elim (hneeds c) (hneeds' c)⟩

theorem mem_results_bind {β : Type} {p : Plan α} {f : α → Plan β} {b : β} :
    b ∈ (p >>= f).results available ↔ ∃ a ∈ p.results available, b ∈ (f a).results available := by
  rw [compatible_results.bind rfl fun _ => rfl, Json.mem_bind]

@[simp] theorem results_pure (a : α) : (pure a : Plan α).results available = {a} :=
  compatible_results.pure a

@[simp] theorem mem_results_need {c : CardId} {u : Unit} :
    u ∈ (need c).results available ↔ c ∈ available := by
  simp [results]

@[simp] theorem liftM_eq_ofExcept (x : Except MigrationError α) : (liftM x : Plan α) = ofExcept x := rfl

@[simp] theorem mem_results_ofExcept {x : Except MigrationError α} {a : α} :
    a ∈ (ofExcept x).results available ↔ x = .ok a := by
  simp [results]

/-- Outcomes are composed as plans are. -/
theorem compatible_outcome :
    Compatible fun α (p : Plan α) (x : Except MigrationError α) => p.outcome = x where
  pure a := rfl
  bind {α β p x f g} hp hf := by
    subst hp
    cases h : p.outcome with
    | error e =>
      rw [bind_of_error h]
      rfl
    | ok a =>
      rw [bind_of_ok h]
      exact hf a

/-! ## Plans whose needs are answered -/

/-- What comes of a plan if it is known what comes of each card that it may need. -/
def given (answer : CardId → Except MigrationError Unit) (p : Plan α) : Except MigrationError α := do
  p.needs.forM answer
  p.outcome

variable {answer : CardId → Except MigrationError Unit}

theorem compatible_given :
    Compatible fun α (p : Plan α) (x : Except MigrationError α) => p.given answer = x where
  pure a := rfl
  bind {α β p x f g} hp hf := by
    subst hp
    cases h : p.outcome with
    | error e =>
      rw [bind_of_error h, given, given, h, bind_assoc]
      rfl
    | ok a =>
      rw [bind_of_ok h, given, given, h, bind_assoc]
      show (forM (p.needs ++ (f a).needs) answer >>= fun _ => (f a).outcome) =
        (forM p.needs answer >>= fun _ => g a)
      rw [List.forM_append, bind_assoc, ← hf a]
      rfl

theorem given_bind_eq_ok_iff {β : Type} {p : Plan α} {f : α → Plan β} {b : β} :
    (p >>= f).given answer = .ok b ↔ ∃ a, p.given answer = .ok a ∧ (f a).given answer = .ok b := by
  rw [compatible_given.bind rfl fun _ => rfl, Except.bind_eq_ok_iff]

/-- A plan has an outcome if it succeeds with every card that it needs. -/
theorem given_ok (p : Plan α) : p.given (fun _ => .ok ()) = p.outcome := by
  have hneeds : p.needs.forM (fun _ => .ok () : CardId → Except MigrationError Unit) = .ok () := by
    induction p.needs with
    | nil => rfl
    | cons c needs ih => exact ih
  rw [given, hneeds]
  rfl

theorem mem_results_of_given {p : Plan α} {a : α} (h : p.given answer = .ok a) :
    a ∈ p.results Set.univ := by
  obtain ⟨_, -, h⟩ := Except.bind_eq_ok_iff.1 h
  exact ⟨h, fun _ _ => trivial⟩

end Plan

namespace Renaming

variable {r : Renaming} {available : Set CardId} {trail : Trail} {j j' : Json}

/-! ## Query parts and joins -/

theorem mem_place_queryPart (h : trail.kind? = some .queryPart)
    (hj : j' ∈ (r.place trail j).results available) :
    j' ∈ j.onMembers fun key v => (r.queryMember key v).results available := by
  rw [place, h] at hj
  rwa [← Plan.compatible_results.onMembers (fun _ _ => rfl) j]

theorem mem_place_join (h : trail.kind? = some .join)
    (hj : j' ∈ (r.place trail j).results available) :
    j' ∈ j.onMembers fun key v => (r.joinMember key v).results available := by
  rw [place, h] at hj
  rwa [← Plan.compatible_results.onMembers (fun _ _ => rfl) j]

theorem keepsInner_place : Walk.KeepsInner fun trail j => (r.place trail j).results available where
  nested {trail j j'} h hj := by
    rcases h with h | h
    · exact Json.member?_of_mem_onMembers (by simp [queryMember]) (mem_place_queryPart h hj)
    · exact Json.member?_of_mem_onMembers (by simp [joinMember]) (mem_place_join h hj)
  joins {trail j j'} h hj :=
    Json.member?_of_mem_onMembers (by simp [queryMember]) (mem_place_queryPart h hj)

/-! ## Cards and dashcards -/

theorem keeps_cardNode {key : String}
    (hkey : key ∉ ["database_id", "dataset_query", "table_id", "result_metadata"]) :
    Keeps key r.cardNode := by
  simp only [List.mem_cons, List.not_mem_nil, or_false, not_or] at hkey
  obtain ⟨hdatabase, hquery, htable, hmetadata⟩ := hkey
  refine Json.keeps_onMember_bind hdatabase (Json.keeps_onMember_bind hquery ?_)
  exact Json.keeps_onMember_bind htable (Json.keeps_onMember hmetadata)

/-- The database is set beside the query, which stays. -/
theorem query?_cardNode {card card' : Json} (h : r.cardNode card = .ok card') :
    card'.query? = card.query? := by
  obtain ⟨a, ha, h⟩ := Except.bind_eq_ok_iff.1 h
  obtain ⟨b, hb, h⟩ := Except.bind_eq_ok_iff.1 h
  have hafter : card'.member? "dataset_query" = b.member? "dataset_query" :=
    Json.keeps_onMember_bind (by decide) (Json.keeps_onMember (by decide)) b card' h
  have hbefore : a.member? "dataset_query" = card.member? "dataset_query" :=
    Json.keeps_onMember (by decide) card a ha
  rw [Json.query?, Json.query?, hafter, ← hbefore]
  obtain ⟨v, v', hv, hv', rfl⟩ | ⟨-, rfl⟩ := Json.mem_onMember (Json.mem_onMember_of_eq_ok hb)
  · obtain rfl := Except.ok.inj hv'
    rw [Json.member?_setMember_self (Json.isObj_of_member? hv), hv, Option.bind_some, Option.bind_some,
      Json.member?_setMember_of_ne (by decide)]
  · rfl

/-- Renames a value that holds the id of a card, if the card can be had. -/
def givenCardValue (answer : CardId → Except MigrationError Unit) (r : Renaming) (j : Json) :
    Except MigrationError Json := do
  let destination ← r.card (← r.readId "card" j)
  answer destination
  return destination.toJson

variable {answer : CardId → Except MigrationError Unit}

theorem neededCardValue_given (j : Json) :
    (r.neededCardValue j).given answer = r.givenCardValue answer j := by
  have hneed (c : CardId) : (Plan.need c).given answer = answer c := by
    show (answer c >>= _) >>= _ = _
    cases answer c <;> rfl
  rw [givenCardValue, ← bind_assoc]
  exact Plan.compatible_given.bind rfl fun c => Plan.compatible_given.bind (hneed c) fun _ => rfl

theorem dashcardNode_given (dashcard : Json) : (r.dashcardNode dashcard).given answer =
    (dashcard.onMember "card_id" (Json.unlessNull (r.givenCardValue answer)) >>=
      Json.onMember "card" r.cardSummary) := by
  refine Plan.compatible_given.bind ?_ fun dashcard => ?_
  · refine Plan.compatible_given.onMember _ (fun j => ?_) dashcard
    exact Plan.compatible_given.unlessNull neededCardValue_given j
  · exact Plan.compatible_given.onMember _ (fun _ => rfl) dashcard

theorem keeps_dashcardNode {key : String} (hid : key ≠ "card_id") (hcard : key ≠ "card") :
    Keeps key fun j => (r.dashcardNode j).given answer := by
  rw [funext dashcardNode_given]
  exact Json.keeps_onMember_bind hid (Json.keeps_onMember hcard)

/-- The visit of a card leaves the places inside it alone. -/
theorem place_card_keeps {t : Trail} {j j' : Json} (ht : t.kind? = some .card)
    (h : (r.place t j).given answer = .ok j') :
    j'.member? "visualization_settings" = j.member? "visualization_settings" ∧
    j'.query? = j.query? ∧ j'.member? "parameter_mappings" = j.member? "parameter_mappings" := by
  rw [place, ht] at h
  dsimp only at h
  split_ifs at h
  · have hkeeps {key : String} (hid : key ≠ "card_id") (hcard : key ≠ "card") :
        j'.member? key = j.member? key := keeps_dashcardNode hid hcard j j' h
    refine ⟨hkeeps (by decide) (by decide), ?_, hkeeps (by decide) (by decide)⟩
    rw [Json.query?, Json.query?, hkeeps (by decide) (by decide)]
  · exact ⟨keeps_cardNode (by decide) j j' h, query?_cardNode h, keeps_cardNode (by decide) j j' h⟩

end Renaming

end Rehome
