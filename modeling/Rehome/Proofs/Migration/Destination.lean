import Rehome.Proofs.Migration.Acyclic
import Rehome.Proofs.Migration.Order
import Rehome.Proofs.Reference.Destination

/-! # Pushed cards are in destination terms

Every card that a migration pushes is what came of the renaming of some document (`renamed_record`), so
wherever it may refer to something, it refers to something in the destination. -/

namespace Rehome.Session

open Relation Migrating

variable {ρ μ : Type} [Remote ρ] [Provider μ]

/-- The migration of a card that succeeds has been accepted. -/
theorem accepted_of_migrateCard {card : CardId}
    {s : Session (Recorded ρ) μ} (hs : s.Consistent) (hok : (migrateCard card s.forget).1 = .ok ()) :
    MigrationAccepted card (s.record [.migrate (.card card)]).remote.log := by
  have hforget := migrateCard_forgets Recorded.watches card (s.announce (.migrate (.card card)))
  have hwatched : (migrateCard card (s.announce (.migrate (.card card)))).1 = .ok () :=
    (congrArg Prod.fst hforget).symm.trans hok
  have hconsistent := perform_consistent (.migrate (.card card)) hs
  exact (hconsistent.ledger.mem_migrated_iff card).1 (mem_migrated_of_migrateCard (Prod.ext hwatched rfl))

/-- In the history of a new session, every card that a migration pushed, accepted or not, is in destination
terms, and its query reads from no card whose migration had not been accepted by then. -/
theorem record_inDestination (mapping : Mapping)
    (hbuilt : mapping.tables.Built) (translator : Option (Translator μ)) (remote : ρ) (calls : List Call) :
    ∀ before card document answer after,
      ((watched mapping translator remote).record calls).remote.log =
        before ++ .push .migration (.card card) document answer :: after →
      mapping.CardInDestination {c | MigrationAccepted c before} document := by
  intro before card document answer after hlog
  have hrenamed : Renamed mapping ((watched mapping translator remote).record calls).remote.log :=
    renamed_record calls (consistent_watched mapping translator remote) .empty
  obtain ⟨d, hd⟩ := hrenamed before _ document answer after hlog
  exact Renaming.card_inDestination (r := ⟨mapping, .card card⟩) hbuilt hd

/-! ## A question that is built on another -/

/-- A question on a table, and one that is built on it. -/
def layered : Memory :=
  (Memory.empty.withDocument (.card ⟨112⟩) (Sample.question ⟨112⟩ "A" ⟨10⟩ ⟨101⟩)).withDocument
    (.card ⟨113⟩) (Sample.questionOnCard ⟨113⟩ "B" ⟨12⟩)

theorem built_sampled : sampled.tables.Built := by
  have hspec : EquivalenceTable.ofSpec Sample.tables = .ok sampled.tables := rfl
  exact EquivalenceTable.built_ofSpec hspec

theorem migrateCard_layered :
    (migrateCard ⟨113⟩ (Session.new sampled layered : Session Memory TableProvider)).1 = .ok () := by
  have hmigratable : ∀ a ∈ [(⟨112⟩ : CardId), ⟨113⟩], layered.Migratable sampled a := by
    have hrenamed : ∀ a ∈ [(⟨112⟩ : CardId), ⟨113⟩], ((layered.document? (.card a)).any fun d =>
        d.isObj && (Renaming.document ⟨sampled, .card a⟩ d).outcome.isOk) = true := by
      decide +kernel
    exact fun a ha => Memory.migratable_of_isOk ⟨rfl, rfl, fun p hp => absurd hp List.not_mem_nil⟩
      (hrenamed a ha)
  have hrefers : (∀ b, layered.Refers sampled.moves ⟨113⟩ b → b = ⟨112⟩) ∧
      ∀ b, ¬layered.Refers sampled.moves ⟨112⟩ b := by
    simp only [Memory.refers_iff_mem]
    decide +kernel
  have hgrounded : Acc (fun b a => layered.Refers sampled.moves a b) ⟨113⟩ := by
    refine .intro _ fun b hb => ?_
    obtain rfl := hrefers.1 b hb
    exact .intro _ fun b hb => absurd hb (hrefers.2 b)
  have hreaches : ∀ a, ReflTransGen (layered.Refers sampled.moves) ⟨113⟩ a → a ∈ [(⟨112⟩ : CardId), ⟨113⟩] := by
    intro a ha
    rcases ha.cases_head with rfl | ⟨b, hb, hba⟩
    · exact .tail _ (.head _)
    obtain rfl := hrefers.1 b hb
    rcases hba.cases_head with rfl | ⟨c, hc, -⟩
    · exact .head _
    · exact absurd hc (hrefers.2 c)
  refine ((migrateCard_exact (fun a ha => hmigratable a (hreaches a ha)) false).1).2 ?_
  rintro ⟨a, ha, hcycle⟩
  exact not_transGen_of_acc hgrounded ha hcycle

/-- The question that is built on another is pushed, in destination terms. -/
theorem inDestination_layered : sampled.tables.Built ∧ ∃ before document after,
    ((watched sampled none layered : Session (Recorded Memory) TableProvider).record
        [.migrate (.card ⟨113⟩)]).remote.log =
      before ++ .accepted .migration (.card ⟨113⟩) document :: after ∧
    sampled.CardInDestination {c | MigrationAccepted c before} document := by
  obtain ⟨document, hpushed⟩ := accepted_of_migrateCard
    (consistent_watched sampled none layered : Session.Consistent (μ := TableProvider) _) migrateCard_layered
  obtain ⟨before, after, hlog⟩ := List.append_of_mem hpushed
  exact ⟨built_sampled, before, document, after, hlog,
    record_inDestination sampled built_sampled none layered _ before _ _ _ after hlog⟩

end Rehome.Session
