import Rehome.Proofs.Migration.Again
import Rehome.Proofs.Reference.Frame

/-! # What a migration leaves alone

Without a translator, a document that comes out of the walk of a migration differs from the one that went in
at the sites of its references only (`walkDocument_differsOnly`): whatever else it holds is there as before,
lists have their lengths and entries their order. The new keys of columns and of click mappings must be
distinct; entries that come to the same key are made one. -/

namespace Rehome.Migrating

variable {ρ μ : Type}

/-- Everything else in a document is left alone. -/
theorem walkDocument_differsOnly [Remote ρ] [Provider μ] {entity : Entity} {d d' : Json} {s t : Session ρ μ}
    (hd : d.WellFormed) (htranslator : s.translator = none)
    (hapart : Renaming.KeepsApart ⟨s.mapping, entity⟩ (Walk.DocumentPlace entity.kind d))
    (h : walkDocument migrateCard entity d s = (.ok d', t)) : DiffersOnly (DocumentSite entity.kind d) d d' := by
  rw [walkDocument_carriesOut migrateCard_untranslated entity d s rfl htranslator] at h
  exact Renaming.document_differsOnly hd hapart (carryOut_eq_ok_iff.1 h).2

/-! ## A question with clicks -/

/-- A click mapping to a column, with the entries that follow in it and in its target. -/
def clickEntry (column : ColumnId) (ids : List (String × Json)) : String × Json :=
  let dimension := Json.arr [.str "dimension", Sample.fieldRef column]
  (dimension.compact, .obj (("target", .obj ([("type", .str "dimension"), ("dimension", dimension)] ++ ids)) :: ids))

/-- A question built on a card, with settings for two columns, and clicks that filter by one of them. -/
def clickable (source : CardId) (first second : ColumnId) (database ids : List (String × Json)) : Json :=
  .obj [
    ("name", .str "Clicks"),
    ("dataset_query", .obj (("query", .obj [("source-table", (Source.card source).toJson)]) :: database)),
    ("visualization_settings", .obj [
      ("column_settings", .obj ([first, second].map fun column =>
        ((Json.arr [.str "ref", Sample.fieldRef column]).compact, .obj [("column_title", .str "Sum")]))),
      ("click_behavior", .obj [("targetId", source.toJson), ("parameterMapping", .obj [clickEntry first ids])])])]

/-- The question, without ids and without a database. -/
def clicks : Json := clickable ⟨12⟩ ⟨101⟩ ⟨200⟩ [] []

/-- The question that it becomes: the columns and the card are those of the destination, the click mapping and its
target have been given ids, and the query has been given a database. -/
def movedClicks : Json :=
  clickable ⟨112⟩ ⟨1105⟩ ⟨1200⟩ [("database", .int 3)]
    [("id", .str (Json.arr [.str "dimension", Sample.fieldRef ⟨1105⟩]).compact)]

theorem wellFormed_clicks : clicks.WellFormed := by
  have hkeys : (Json.arr [.str "ref", Sample.fieldRef ⟨101⟩]).compact ≠
      (Json.arr [.str "ref", Sample.fieldRef ⟨200⟩]).compact := by decide +kernel
  have hreference : (Sample.fieldRef ⟨101⟩).WellFormed := by
    simp [Sample.fieldRef, Ident.toJson, Ident.toNat, Json.WellFormed, Json.WellFormedItems]
  have hsource : (Source.card ⟨12⟩).toJson.WellFormed := trivial
  simp [clicks, clickable, clickEntry, Json.WellFormed, Json.WellFormedItems, Json.WellFormedMembers, Ident.toJson,
    Ident.toNat, hkeys, hreference, hsource]

theorem keepsApart_clicks : Renaming.KeepsApart ⟨sampled, .card ⟨113⟩⟩ (Walk.DocumentPlace .card clicks) where
  columns {members keys} hplace hkeys := by
    obtain ⟨hplace⟩ := hplace
    cases hplace with
    | settings hs hplace =>
      obtain rfl := Option.some.inj hs
      cases hplace with
      | columns hcolumns =>
        obtain rfl := Json.obj.inj (Option.some.inj hcolumns)
        have hnew : ([⟨101⟩, ⟨200⟩].map fun column : ColumnId =>
            ((Json.arr [.str "ref", Sample.fieldRef column]).compact, Json.obj [("column_title", .str "Sum")])).mapM
            (fun e => Renaming.refKey ⟨sampled, .card ⟨113⟩⟩ e.1) =
            .ok ([⟨1105⟩, ⟨1200⟩].map fun column => (Json.arr [.str "ref", Sample.fieldRef column]).compact) := by
          decide +kernel
        obtain rfl := Except.ok.inj (hnew.symm.trans hkeys)
        decide +kernel
    | query hq hreaches => exact absurd (hreaches.kind_cases (.inl rfl)) (by decide)
  mappings {click members entries} hplace hmembers hentries := by
    obtain ⟨hplace⟩ := hplace
    cases hplace with
    | settings hs hplace =>
      obtain rfl := Option.some.inj hs
      cases hplace with
      | columnClick hcolumns he hclick =>
        obtain rfl := Json.obj.inj (Option.some.inj hcolumns)
        obtain ⟨column, -, rfl⟩ := List.mem_map.1 he
        cases hclick
      | click hclick =>
        obtain rfl := Option.some.inj hclick
        obtain rfl := Json.obj.inj (Option.some.inj hmembers)
        have hlength := (Except.mapM_eq_ok_iff.1 hentries).length_eq
        obtain ⟨e, rfl⟩ := List.length_eq_one_iff.1 hlength.symm
        exact List.nodup_singleton _
    | query hq hreaches => exact absurd (hreaches.kind_cases (.inl rfl)) (by decide)

theorem clicks_differsOnly : clicks.WellFormed ∧ resumed.translator = none ∧
    Renaming.KeepsApart ⟨sampled, .card ⟨113⟩⟩ (Walk.DocumentPlace .card clicks) ∧
    walkDocument migrateCard (.card ⟨113⟩) clicks resumed = (.ok movedClicks, resumed) ∧
    DiffersOnly (DocumentSite .card clicks) clicks movedClicks := by
  have hwalk : walkDocument migrateCard (.card ⟨113⟩) clicks resumed = (.ok movedClicks, resumed) :=
    walkDocument_resumed (by decide +kernel) (by decide +kernel)
  exact ⟨wellFormed_clicks, rfl, keepsApart_clicks, hwalk,
    walkDocument_differsOnly wellFormed_clicks rfl keepsApart_clicks hwalk⟩

end Rehome.Migrating
