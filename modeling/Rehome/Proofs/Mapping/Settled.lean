import Rehome.Mapping.Basic
import Rehome.Proofs.Data.Assoc
import Rehome.Proofs.Json.Settled

/-! # Settled mappings

A mapping is settled if it leaves alone whatever it maps to. A destination that is also a source may
unsettle it; so it is enough to look at the destinations that the mapping lists (`settled_of_listed`). -/

namespace Rehome.Mapping

variable {m : Mapping}

/-- A mapping that leaves alone whatever it maps to, and no replacement of a name is overridden. -/
structure Settled (m : Mapping) : Prop where
  table : Settles m.resolveTable
  column : Settles m.replaceColumn
  card {c c' : CardId} : m.moves.card? c = some c' → m.moves.card? c' = some c'
  dashboard {d d' : DashboardId} : m.moves.dashboard? d = some d' → m.moves.dashboard? d' = some d'
  name {n n' n'' : String} : m.replaceName? n = some n' → m.replaceName? n' = some n'' → n'' = n'

theorem settles_resolveTable (h : ∀ e ∈ m.tables.tables, m.resolveTable e.2 = .ok e.2) :
    Settles m.resolveTable := by
  intro t t' ht
  have hresolve := ht
  rw [resolveTable, EquivalenceTable.resolveTable] at hresolve
  split at hresolve
  · next d hd =>
    obtain rfl := Except.ok.inj hresolve
    exact h _ (Assoc.mem_of_lookup hd)
  · split at hresolve
    · obtain rfl := Except.ok.inj hresolve
      exact ht
    · cases hresolve

/-- The column that takes the place of a column that has been found. -/
def placed (m : Mapping) (r : ResolvedColumn) : ColumnId :=
  (m.overrides.replacement? r.column r.table).getD r.column

theorem settles_replaceColumn (h : ∀ e ∈ m.tables.columns ++ m.tables.columnTargets,
    m.replaceColumn (m.placed e.2) = .ok (m.placed e.2)) : Settles m.replaceColumn := by
  intro c c' hc
  have hreplace := hc
  rw [replaceColumn] at hreplace
  split at hreplace
  · next r hr =>
    obtain rfl := Except.ok.inj hreplace
    rw [EquivalenceTable.resolveColumn] at hr
    split at hr
    · next r' hr' =>
      obtain rfl := Except.ok.inj hr
      refine h (c, r') (List.mem_append.2 ?_)
      rcases Option.or_eq_some_iff.1 hr' with hr' | ⟨-, hr'⟩
      · exact .inl (Assoc.mem_of_lookup hr')
      · exact .inr (Assoc.mem_of_lookup hr')
    · cases hr
  · split at hreplace
    · obtain rfl := Except.ok.inj hreplace
      exact hc
    · cases hreplace

theorem settles_find? {kind : IdentKind} {moves : List (Ident kind × Ident kind)}
    (h : ∀ e ∈ moves, Moves.find? moves e.2 = some e.2) {id id' : Ident kind}
    (hid : Moves.find? moves id = some id') : Moves.find? moves id' = some id' := by
  have hfind := hid
  rw [Moves.find?] at hfind
  split at hfind
  · next d hd =>
    obtain rfl := Option.some.inj hfind
    exact h _ (Assoc.mem_of_lookup hd)
  · split at hfind
    · obtain rfl := Option.some.inj hfind
      exact hid
    · cases hfind

/-- A mapping is settled if it leaves alone the destinations that are listed in it. -/
theorem settled_of_listed (table : ∀ e ∈ m.tables.tables, m.resolveTable e.2 = .ok e.2)
    (column : ∀ e ∈ m.tables.columns ++ m.tables.columnTargets,
      m.replaceColumn (m.placed e.2) = .ok (m.placed e.2))
    (card : ∀ e ∈ m.moves.cards, m.moves.card? e.2 = some e.2)
    (dashboard : ∀ e ∈ m.moves.dashboards, m.moves.dashboard? e.2 = some e.2)
    (name : ∀ e ∈ m.overrides.byName, (m.replaceName? e.2).getD e.2 = e.2) : m.Settled where
  table := settles_resolveTable table
  column := settles_replaceColumn column
  card := settles_find? card
  dashboard := settles_find? dashboard
  name {n n' n''} hn hn' := by
    have hsame := name (n, n') (Assoc.mem_of_lookup hn)
    rwa [hn'] at hsame

end Rehome.Mapping
