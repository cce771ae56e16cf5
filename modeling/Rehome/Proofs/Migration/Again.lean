import Rehome.Migration.Memory
import Rehome.Proofs.Migration.Carried
import Rehome.Proofs.Reference.Settled.Place
import Rehome.Sample
import Rehome.Translator.Scripted

/-! # Migrating what has been migrated

Without a translator, the walk of a migration carries out the plan of renaming the document and does
nothing else (`walkDocument_carriesOut`). With a mapping that is settled, a document that has come out of
such a walk comes out of a second one unchanged, in the same session, where nothing has to be migrated
anew, as in any other one in which the cards it needs can be migrated (`walkDocument_again`). -/

namespace Rehome

variable {ρ μ : Type} {α β : Type}

/-- The mapping is the same, and if there was no translator there is none. -/
structure Session.Untranslated (s t : Session ρ μ) : Prop where
  mapping : t.mapping = s.mapping
  translator : s.translator = none → t.translator = none

theorem Session.Untranslated.stable [Remote ρ] :
    Migrating.Stable (Session.Untranslated (ρ := ρ) (μ := μ)) where
  refl _ := ⟨rfl, id⟩
  trans h h' := ⟨h'.mapping.trans h.mapping, fun hs => h'.translator (h.translator hs)⟩
  fetch _ _ := ⟨rfl, id⟩
  push _ _ _ := ⟨rfl, id⟩
  translator h := ⟨rfl, fun hs => absurd hs h⟩
  markProduced _ _ _ := ⟨rfl, id⟩
  markMigrated _ _ := ⟨rfl, id⟩
  inside h := ⟨h.mapping, h.translator⟩

/-- Cards stay migrated. -/
theorem Migrating.stable_migrated [Remote ρ] (card : CardId) :
    Stable (ρ := ρ) (μ := μ) fun s t => card ∈ s.migrated → card ∈ t.migrated where
  refl _ := id
  trans h h' hs := h' (h hs)
  fetch _ _ := id
  push _ _ _ := id
  translator _ := id
  markProduced _ _ _ := id
  markMigrated _ _ hs := mem_insertSorted.2 (.inr hs)
  inside h := h

namespace Migrating

/-! ## Walks without a translator -/

section Walks

variable {mapping : Mapping} {require : CardId → Migrating ρ μ Unit}

/-- With this mapping and without a translator, the computation carries out the plan, and nothing else. -/
def CarriesOut (mapping : Mapping) (require : CardId → Migrating ρ μ Unit) (α : Type)
    (x : Migrating ρ μ α) (p : Plan α) : Prop :=
  ∀ s, s.mapping = mapping → s.translator = none → x s = carryOut require p s

variable (hrequire : ∀ c, Leads Session.Untranslated _ (require c))

include hrequire

theorem carryOut_untranslated (p : Plan α) : Leads Session.Untranslated α (carryOut require p) := by
  have hclosed : Closed (Leads (Session.Untranslated (ρ := ρ) (μ := μ))) :=
    closed_leads (fun _ => ⟨rfl, id⟩)
      fun h h' => ⟨h'.mapping.trans h.mapping, fun hs => h'.translator (h.translator hs)⟩
  exact carryOut_related hclosed.compatible (g := require) (fun _ _ => ⟨rfl, id⟩) hrequire p

/-- A walk without a translator carries out the plan of renaming the document, and nothing else. -/
theorem walkDocument_carriesOut [Provider μ] (entity : Entity) (d : Json) :
    CarriesOut mapping require _ (walkDocument require entity d)
      ((⟨mapping, entity⟩ : Renaming).document d) := by
  intro s hs ht
  have hkeeps (c : CardId) : KeepsSetUp mapping none Unit (require c) := fun s hs =>
    ⟨(hrequire c s).mapping.trans hs.mapping, (hrequire c s).translator hs.translator⟩
  rw [walkDocument_performs hkeeps (fun t ht => by cases ht) entity d s ⟨hs, ht⟩]
  show carryOut require (Walk.document entity.kind ((⟨mapping, entity⟩ : Renaming).translated .ok) [] d) s = _
  rw [Renaming.translated_ok]
  rfl

end Walks

/-! ## Cards that have been migrated -/

section Migrated

variable [Remote ρ] [Provider μ]

theorem migrateCard_untranslated (c : CardId) :
    Leads Session.Untranslated _ (migrateCard (ρ := ρ) (μ := μ) c) :=
  Session.Untranslated.stable.migrateCard c

theorem migrateCard_of_mem {c : CardId} {s : Session ρ μ} (h : c ∈ s.migrated) :
    migrateCard c s = (.ok (), s) := by
  have hmigrated : s.isMigrated c := by simpa [Session.isMigrated] using h
  rw [migrateCard_apply, Session.depthLimit, migrateCardWithin, once_apply, if_pos hmigrated]

theorem mem_migrated_of_migrateCard {c : CardId} {s t : Session ρ μ}
    (h : migrateCard c s = (.ok (), t)) : c ∈ t.migrated := by
  rw [migrateCard_apply, Session.depthLimit, migrateCardWithin] at h
  have honce := isMigrated_once (congrArg Prod.fst h)
  rwa [h] at honce

theorem forM_migrateCard_of_mem {cards : List CardId} {s : Session ρ μ}
    (h : ∀ c ∈ cards, c ∈ s.migrated) : cards.forM migrateCard s = (.ok (), s) := by
  induction cards with
  | nil => rfl
  | cons c cards ih =>
    rw [List.forM, bind_of_ok (migrateCard_of_mem (h c List.mem_cons_self))]
    exact ih fun c hc => h c (List.mem_cons_of_mem _ hc)

theorem mem_migrated_of_forM {cards : List CardId} {s t : Session ρ μ}
    (h : cards.forM migrateCard s = (.ok (), t)) : ∀ c ∈ cards, c ∈ t.migrated := by
  induction cards generalizing s with
  | nil => exact fun c hc => absurd hc List.not_mem_nil
  | cons c cards ih =>
    rw [List.forM, bind_apply] at h
    rcases hc : migrateCard c s with ⟨e | u, s'⟩
    · rw [hc] at h
      cases h
    · rw [hc] at h
      have hlater := (stable_migrated c).closed.forM (fun c' => (stable_migrated c).migrateCard c') cards s'
      refine List.forall_mem_cons.2 ⟨?_, ih h⟩
      rw [show (cards.forM migrateCard s').2 = t from congrArg Prod.snd h] at hlater
      exact hlater (mem_migrated_of_migrateCard hc)

/-- Migrating a migrated document changes nothing, if the doubles in the keys of its columns are read back
from their texts; ids and names always are. In the same session the second walk needs no more than
the first one and finds it there; in another one with this mapping, it succeeds with the same document as
soon as the cards it needs can be migrated. -/
theorem walkDocument_again {entity : Entity} {d d' : Json} {s t : Session ρ μ}
    (hsettled : s.mapping.Settled) (htranslator : s.translator = none)
    (hkeys : ∀ key, ColumnKey entity.kind d key → Renaming.KeyReadsBack ⟨s.mapping, entity⟩ key)
    (h : walkDocument migrateCard entity d s = (.ok d', t)) :
    walkDocument migrateCard entity d' t = (.ok d', t) ∧
    ∀ s' u : Session ρ μ, s'.mapping = s.mapping → s'.translator = none →
      ((⟨s.mapping, entity⟩ : Renaming).document d').needs.forM migrateCard s' = (.ok (), u) →
      walkDocument migrateCard entity d' s' = (.ok d', u) := by
  rw [walkDocument_carriesOut migrateCard_untranslated entity d s rfl htranslator] at h
  obtain ⟨hneeds, houtcome⟩ := carryOut_eq_ok_iff.1 h
  obtain ⟨houtcome', hneeds'⟩ := Renaming.document_self hsettled hkeys houtcome
  have hwalk : ∀ s' u : Session ρ μ, s'.mapping = s.mapping → s'.translator = none →
      ((⟨s.mapping, entity⟩ : Renaming).document d').needs.forM migrateCard s' = (.ok (), u) →
      walkDocument migrateCard entity d' s' = (.ok d', u) := by
    intro s' u hs' ht' hu
    rw [walkDocument_carriesOut migrateCard_untranslated entity d' s' hs' ht']
    exact carryOut_eq_ok_iff.2 ⟨hu, houtcome'⟩
  have hleads := carryOut_untranslated migrateCard_untranslated
    ((⟨s.mapping, entity⟩ : Renaming).document d) s
  rw [h] at hleads
  refine ⟨hwalk t t hleads.mapping (hleads.translator htranslator) ?_, hwalk⟩
  exact forM_migrateCard_of_mem fun c hc => mem_migrated_of_forM hneeds c (hneeds' c hc)

end Migrated

/-! ## A question that is migrated twice -/

/-- The mapping of the samples. -/
def sampled : Mapping :=
  ⟨⟨3⟩, (EquivalenceTable.ofSpec Sample.tables).toOption.getD .empty, Sample.overrides, Sample.moves⟩

/-- A question built on a card, with settings that refer to columns by name and by the text of a key. -/
def totals (source : CardId) (column : ColumnId) (metric : String) : Json :=
  .obj [
    ("name", .str "Totals"),
    ("dataset_query", .obj [("database", .int 3), ("query", .obj [
      ("source-table", (Source.card source).toJson), ("breakout", .arr [Sample.fieldRef column])])]),
    ("visualization_settings", .obj [
      ("graph.metrics", .arr [.str metric]),
      ("column_settings", .obj [((Json.arr [.str "ref", Sample.fieldRef column]).compact, .obj [])])])]

/-- A session with the mapping of the samples in which the card 112 has been migrated. -/
def resumed : Session Memory TableProvider := { Session.new sampled .empty with migrated := [⟨112⟩] }

/-- A document that needs the card 112 alone is renamed in this session. -/
theorem walkDocument_resumed {entity : Entity} {d d' : Json}
    (hneeds : (Renaming.document ⟨sampled, entity⟩ d).needs = [⟨112⟩])
    (houtcome : (Renaming.document ⟨sampled, entity⟩ d).outcome = .ok d') :
    walkDocument migrateCard entity d resumed = (.ok d', resumed) := by
  rw [walkDocument_carriesOut migrateCard_untranslated entity d resumed rfl rfl]
  refine carryOut_eq_ok_iff.2 ⟨forM_migrateCard_of_mem fun c hc => ?_, houtcome⟩
  rw [show resumed.migrated = [⟨112⟩] from rfl, ← hneeds]
  exact hc

theorem settled_sampled : sampled.Settled :=
  Mapping.settled_of_listed (by decide) (by decide) (by decide) (by decide) (by decide)

theorem keyReadsBack_totals {key : String} (h : ColumnKey .card (totals ⟨12⟩ ⟨101⟩ "TOTAL") key) :
    Renaming.KeyReadsBack ⟨sampled, .card ⟨113⟩⟩ key := by
  obtain ⟨hsettings, hkey⟩ := h
  obtain rfl := Option.some.inj hsettings
  cases hkey with
  | tableColumn hcolumns => cases hcolumns
  | columnSettings hcolumns he =>
    obtain rfl := Json.obj.inj (Option.some.inj hcolumns)
    obtain rfl := List.mem_singleton.1 he
    intro j j' hj hj'
    have hparse : Json.parse? (Json.arr [.str "ref", Sample.fieldRef ⟨101⟩]).compact =
        some (Json.arr [.str "ref", Sample.fieldRef ⟨101⟩]) := by decide +kernel
    obtain rfl := Option.some.inj (hparse.symm.trans hj)
    have hvalue : Renaming.refValue? ⟨sampled, .card ⟨113⟩⟩ (Json.arr [.str "ref", Sample.fieldRef ⟨101⟩]) =
        .ok (some (Json.arr [.str "ref", Sample.fieldRef ⟨1105⟩])) := by rfl
    obtain rfl := Option.some.inj (Except.ok.inj (hvalue.symm.trans hj'))
    intro x hx
    simp [Sample.fieldRef, Ident.toJson] at hx

theorem walkDocument_totals : sampled.Settled ∧ resumed.translator = none ∧
    (∀ key, ColumnKey .card (totals ⟨12⟩ ⟨101⟩ "TOTAL") key →
      Renaming.KeyReadsBack ⟨sampled, .card ⟨113⟩⟩ key) ∧
    walkDocument migrateCard (.card ⟨113⟩) (totals ⟨12⟩ ⟨101⟩ "TOTAL") resumed =
      (.ok (totals ⟨112⟩ ⟨1105⟩ "TOTAL_EUR"), resumed) ∧
    walkDocument migrateCard (.card ⟨113⟩) (totals ⟨112⟩ ⟨1105⟩ "TOTAL_EUR") resumed =
      (.ok (totals ⟨112⟩ ⟨1105⟩ "TOTAL_EUR"), resumed) := by
  have hkeys : ∀ key, ColumnKey .card (totals ⟨12⟩ ⟨101⟩ "TOTAL") key →
      Renaming.KeyReadsBack ⟨sampled, .card ⟨113⟩⟩ key := fun _ => keyReadsBack_totals
  have hwalk : walkDocument migrateCard (.card ⟨113⟩) (totals ⟨12⟩ ⟨101⟩ "TOTAL") resumed =
      (.ok (totals ⟨112⟩ ⟨1105⟩ "TOTAL_EUR"), resumed) :=
    walkDocument_resumed (by decide +kernel) (by decide +kernel)
  exact ⟨settled_sampled, rfl, hkeys, hwalk, (walkDocument_again settled_sampled rfl hkeys hwalk).1⟩

end Migrating

end Rehome
