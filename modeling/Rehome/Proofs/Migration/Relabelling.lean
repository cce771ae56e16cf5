import Rehome.Migration.Memory
import Rehome.Proofs.Label.Replacement
import Rehome.Proofs.Migration.History
import Rehome.Translator.Scripted

/-! # Relabelling

What the labels of an entity are replaced by are the images of the labels it has, and only a document in which
something is replaced is pushed. -/

namespace Rehome

namespace Migrating

variable {ρ μ : Type} [Remote ρ] {entity : Entity} {replacements : List (String × String)} {d : Json}
  {s t : Session (Recorded ρ) μ}

/-- A document without any label that is replaced is fetched, and that is all. -/
theorem relabel_of_zero {d' : Json} (hfetch : fetchDocument entity s = (.ok d, t))
    (h : Label.replace replacements entity.kind d = (0, d')) : relabel entity replacements s = (.ok 0, t) := by
  rw [relabel, bind_of_ok hfetch, h]
  rfl

/-- A document in which a label is replaced is pushed. -/
theorem relabel_of_ne_zero {count : Nat} {d' : Json} (hdry : s.dryRun = false)
    (hfetch : fetchDocument entity s = (.ok d, t)) (h : Label.replace replacements entity.kind d = (count, d'))
    (hcount : count ≠ 0) : ∃ answer,
      (relabel entity replacements s).2.remote.log =
        t.remote.log ++ [.push t.remote.purpose entity d' answer] ∧
      ((relabel entity replacements s).1 = .ok count ↔ answer = .ok Remote.accepted) := by
  have hdry' : t.dryRun = false := by
    obtain ⟨remote, rfl⟩ := fetchDocument_of_ok hfetch
    exact hdry
  have hrelabel : relabel entity replacements s = (push entity d' >>= fun _ => pure count) t := by
    rw [relabel, bind_of_ok hfetch, h]
    dsimp only
    rw [if_neg hcount]
  rw [hrelabel, bind_apply]
  rcases push_cases entity d' hdry' with ⟨remote, hpush⟩ | ⟨e, remote, answer, hanswer, hpush⟩
  · rw [hpush]
    exact ⟨.ok Remote.accepted, rfl, iff_of_true rfl rfl⟩
  · rw [hpush]
    exact ⟨answer, rfl, iff_of_false nofun hanswer⟩

/-- Relabelling replaces some texts of a document, each between the blanks that surround it, and nothing else:
as many as it counts, and such that the labels are then the images of what they were. The document is pushed if
any text is replaced, and otherwise nothing is. If no replacement is to be replaced in turn, relabelling what has
been relabelled finds nothing to replace. -/
theorem relabel_image {count : Nat} {d' : Json} (hd : d.WellFormed) (hempty : replacements.lookup "" = none)
    (h : Label.replace replacements entity.kind d = (count, d')) :
    (∀ l, l ∈ (Label.ofDocument entity.kind d').elements ↔
      l ≠ "" ∧ ∃ l₀ ∈ (Label.ofDocument entity.kind d).elements,
        Text.trim ((replacements.lookup l₀).getD l₀) = l) ∧
    count = Set.ncard {p | Label.ReplacedAt replacements entity.kind d p} ∧
    Substitutes (fun (_ : Unit) => Label.ReplacedAt replacements entity.kind d)
      (fun _ => Label.ReplacedBy replacements) d d' ∧
    (∀ s t : Session (Recorded ρ) μ, s.dryRun = false → fetchDocument entity s = (.ok d, t) →
      (count = 0 → relabel entity replacements s = (.ok 0, t)) ∧
      (count ≠ 0 → ∃ answer,
        (relabel entity replacements s).2.remote.log =
          t.remote.log ++ [.push t.remote.purpose entity d' answer] ∧
        ((relabel entity replacements s).1 = .ok count ↔ answer = .ok Remote.accepted))) ∧
    ((∀ l r, replacements.lookup l = some r → replacements.lookup (Text.trim r) = none) →
      ∀ s t : Session (Recorded ρ) μ, fetchDocument entity s = (.ok d', t) →
        relabel entity replacements s = (.ok 0, t)) := by
  obtain ⟨hcount, hd'⟩ := Prod.mk.inj ((Label.replace_eq entity.kind d).symm.trans h)
  subst hd'
  refine ⟨fun l => Label.mem_ofDocument_reword hempty, hcount ▸ Label.countP_texts entity.kind hd,
    Label.substitutes_replaced entity.kind d, fun s t hdry hfetch => ⟨?_, relabel_of_ne_zero hdry hfetch h⟩,
    fun hfinal s t hfetch => relabel_of_zero hfetch (Label.replace_reword hfinal entity.kind d)⟩
  rintro rfl
  exact relabel_of_zero hfetch h

/-- A card whose name and description come to the same label. -/
def sums (label : String) : Json :=
  .obj [("name", .str (" " ++ label ++ " ")), ("description", .str label), ("display", .str "Sum")]

/-- A session on an installation that holds one card. -/
def shelf (card : Json) : Session (Recorded Memory) TableProvider :=
  Session.watched ⟨⟨1⟩, .empty, ⟨[], []⟩, ⟨[], []⟩⟩ none (Memory.empty.withDocument (.card ⟨5⟩) card)

theorem sums_relabelled :
    2 = Set.ncard {p | Label.ReplacedAt [("Sum", "Total")] .card (sums "Sum") p} ∧
    (∃ answer, (relabel (.card ⟨5⟩) [("Sum", "Total")] (shelf (sums "Sum"))).2.remote.log =
      [.fetch .migration (.card ⟨5⟩) (.ok (sums "Sum")), .push .migration (.card ⟨5⟩) (sums "Total") answer]) ∧
    relabel (.card ⟨5⟩) [("Sum", "Total")] (shelf (sums "Total")) =
      (.ok 0, (fetchDocument (.card ⟨5⟩) (shelf (sums "Total"))).2) := by
  have hd : (sums "Sum").WellFormed := by
    simp [sums, Json.WellFormed, Json.WellFormedMembers]
  have hreplace : Label.replace [("Sum", "Total")] (Entity.card ⟨5⟩).kind (sums "Sum") = (2, sums "Total") := by decide +kernel
  have hfinal : ∀ l r, [("Sum", "Total")].lookup l = some r → [("Sum", "Total")].lookup (Text.trim r) = none := by
    intro l r h
    have hmem := Assoc.mem_of_lookup h
    simp at hmem
    rw [hmem.2]
    decide +kernel
  obtain ⟨-, hcount, -, hpush, hagain⟩ := relabel_image (ρ := Memory) (μ := TableProvider)
    hd (by decide) hreplace
  refine ⟨hcount, ?_, hagain hfinal _ _ rfl⟩
  obtain ⟨answer, hlog, -⟩ := (hpush (shelf (sums "Sum")) _ rfl rfl).2 (by decide)
  exact ⟨answer, hlog⟩

end Migrating

end Rehome
