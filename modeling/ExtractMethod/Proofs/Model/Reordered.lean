import ExtractMethod.Proofs.Model.Log

/-! A snapshot does not tell in which order references were added, unless they start together. -/
namespace ExtractMethod.Model

open Reference (inDocumentOrder startsAt)

variable {log log' : List Write}

/-- The references of both hosts stand in the same order wherever some of them start together, and
all else is written in the same order. -/
structure Reordered (log log' : List Write) : Prop where
  others : log.filter (·.table ≠ .references) = log'.filter (·.table ≠ .references)
  together : ∀ start, (log.filterMap Write.reference?).filter (startsAt start) =
    (log'.filterMap Write.reference?).filter (startsAt start)

namespace Reference

variable {references others : List Reference}

theorem filter_startsAt_length_le (h : (references.map (·.range.start)).Nodup) (start : Nat) :
    (references.filter (startsAt start)).length ≤ 1 := by
  have hsame : (references.filter (startsAt start)).map (·.range.start) =
      List.replicate (references.filter (startsAt start)).length start := by
    rw [List.eq_replicate_iff]
    refine ⟨by simp, ?_⟩
    simp only [List.mem_map, List.mem_filter]
    rintro _ ⟨r, ⟨-, hr⟩, rfl⟩
    exact startsAt_iff.mp hr
  have hsublist : (references.filter (startsAt start)).Sublist references := List.filter_sublist
  have hnodup := h.sublist (hsublist.map _)
  rwa [hsame, List.nodup_replicate] at hnodup

/-- References no two of which start together may stand in any order. -/
theorem filter_startsAt_eq_of_perm (hperm : references.Perm others)
    (hdistinct : (references.map (·.range.start)).Nodup) (start : Nat) :
    references.filter (startsAt start) = others.filter (startsAt start) := by
  have hlength := filter_startsAt_length_le hdistinct start
  have hfilter := hperm.filter (startsAt start)
  match h : references.filter (startsAt start), hlength with
  | [], _ =>
    rw [h] at hfilter
    exact hfilter.nil_eq
  | [r], _ =>
    rw [h] at hfilter
    exact List.singleton_perm.mp hfilter

theorem inDocumentOrder_eq_of_filter_startsAt
    (h : ∀ start, references.filter (startsAt start) = others.filter (startsAt start)) :
    inDocumentOrder references = inDocumentOrder others := by
  refine eq_of_filter_startsAt pairwise_inDocumentOrder pairwise_inDocumentOrder fun start => ?_
  rw [filter_startsAt_inDocumentOrder, filter_startsAt_inDocumentOrder, h]

end Reference

/-- In particular references no two of which start together may be added in any order. -/
theorem Reordered.of_perm
    (hothers : log.filter (·.table ≠ .references) = log'.filter (·.table ≠ .references))
    (hperm : (log.filterMap Write.reference?).Perm (log'.filterMap Write.reference?))
    (hdistinct : ((log.filterMap Write.reference?).map (·.range.start)).Nodup) :
    Reordered log log' :=
  ⟨hothers, Reference.filter_startsAt_eq_of_perm hperm hdistinct⟩

theorem View.filterMap_part {β γ : Type} (view : View β γ) (h : view.table ≠ .references)
    (log : List Write) :
    (log.filter (·.table ≠ .references)).filterMap view.part = log.filterMap view.part := by
  rw [List.filterMap_filter]
  refine List.filterMap_congr fun w _ => ?_
  by_cases hw : w.table = .references
  · simp [hw, view.part_eq_none w (hw ▸ h.symm)]
  · simp [hw]

/-- All other tables are the same. -/
theorem Reordered.read_eq {β γ : Type} (hreordered : Reordered log log') (view : View β γ)
    (h : view.table ≠ .references) : view.read (.ofWrites log) = view.read (.ofWrites log') := by
  rw [view.read_ofWrites, view.read_ofWrites, ← view.filterMap_part h log, hreordered.others,
    view.filterMap_part h log']

theorem Reordered.ofWrites_eq (h : Reordered log log') :
    Snapshot.ofWrites log = Snapshot.ofWrites log' := by
  have hsymbols := h.read_eq .symbols (by decide)
  have htypeParams := h.read_eq .typeParams (by decide)
  have hnullability := h.read_eq .nullability (by decide)
  have hdataFlow := h.read_eq .dataFlow (by decide)
  have hcontrolFlow := h.read_eq .controlFlow (by decide)
  have hreturnTypes := h.read_eq .returnTypes (by decide)
  have hreferences : (Snapshot.ofWrites log).references = (Snapshot.ofWrites log').references := by
    rw [Snapshot.references_ofWrites, Snapshot.references_ofWrites,
      Reference.inDocumentOrder_eq_of_filter_startsAt h.together]
  generalize Snapshot.ofWrites log = s, Snapshot.ofWrites log' = t at *
  cases s
  cases t
  simp_all [View.symbols, View.typeParams, View.nullability, View.dataFlow, View.controlFlow,
    View.returnTypes]

end ExtractMethod.Model
