import Mathlib.Data.List.Basic
import Mathlib.Data.List.Induction
import TypedMarkup.Table

/-!
Contract: what writing to a table changes.

Owns: the names and the entries of a table after `Table.put`, and `Table.lastWrites`, which says
without writing what a sequence of writes leaves: each name once, at the place of its first write
and with the value of its last. Also which names are distinct ones and how they stand.
-/

namespace TypedMarkup.Table

section

variable {α : Type} {table : Table α} {name : String} {value : α}

theorem has_iff_mem_names : table.has name = true ↔ name ∈ table.names := by
  unfold has get? names
  rw [Option.isSome_iff_ne_none, ne_eq, List.lookup_eq_none_iff]
  constructor
  · intro present
    apply Decidable.byContradiction
    intro absent
    apply present
    intro entry member
    rw [bne_iff_ne]
    rintro rfl
    exact absent (List.mem_map_of_mem member)
  · intro member absent
    obtain ⟨entry, entryMember, rfl⟩ := List.mem_map.mp member
    simpa using absent entry entryMember

theorem mem_of_get? (found : table.get? name = some value) : (name, value) ∈ table := by
  obtain ⟨before, after, rfl, -⟩ := List.lookup_eq_some_iff.mp found
  exact List.mem_append_right before List.mem_cons_self

/-- A name that is there keeps its place, so the names stay as they are. -/
theorem names_put (present : name ∈ table.names) : (put name value table).names = table.names := by
  induction table with
  | nil => cases present
  | cons entry rest ih =>
    rw [put]
    split
    · next same => rw [← same]; rfl
    · next different =>
      have further : name ∈ names rest := by
        rcases List.mem_cons.mp present with here | further
        · exact absurd here.symm different
        · exact further
      exact congrArg (entry.1 :: ·) (ih further)

/-- Writing brings in nothing but the new entry. -/
theorem forall_mem_put {property : String × α → Prop} (new : property (name, value))
    (old : ∀ entry ∈ table, property entry) : ∀ entry ∈ put name value table, property entry := by
  induction table with
  | nil => exact List.forall_mem_singleton.mpr new
  | cons first rest ih =>
    obtain ⟨firstHolds, restHold⟩ := List.forall_mem_cons.mp old
    rw [put]
    split
    · exact List.forall_mem_cons.mpr ⟨new, restHold⟩
    · exact List.forall_mem_cons.mpr ⟨firstHolds, ih restHold⟩

/-- Changing the values of a table goes through a write. -/
theorem map_put {β : Type} (change : α → β) :
    (put name value table).map (Prod.map id change) =
      put name (change value) (table.map (Prod.map id change)) := by
  induction table with
  | nil => rfl
  | cons entry rest ih =>
    rw [put, List.map_cons, put, Prod.map_fst, id_eq]
    split
    · rfl
    · exact congrArg _ ih

theorem get?_cons (entry : String × α) (rest : Table α) (other : String) :
    get? (entry :: rest) other = if other = entry.1 then some entry.2 else rest.get? other := by
  unfold get?
  rw [List.lookup_cons]
  by_cases same : other = entry.1
  · simp [same]
  · have differs : (other == entry.1) = false := by simpa using same
    simp [differs, same]

theorem get?_put (other : String) :
    (put name value table).get? other = if other = name then some value else table.get? other := by
  induction table with
  | nil => rw [put, get?_cons]
  | cons entry rest ih =>
    rw [put]
    by_cases here : entry.1 = name
    · rw [if_pos here, get?_cons, get?_cons, here]
      by_cases same : other = name <;> simp [same]
    · rw [if_neg here, get?_cons, get?_cons, ih]
      by_cases same : other = entry.1
      · rw [if_pos same, if_pos same, if_neg (same ▸ here)]
      · rw [if_neg same, if_neg same]

/-- A name is written at its place, or else behind all others. -/
theorem names_put_eq :
    (put name value table).names =
      if table.names.contains name then table.names else table.names ++ [name] := by
  induction table with
  | nil => rfl
  | cons entry rest ih =>
    simp only [names, List.contains_iff_mem] at ih ⊢
    by_cases here : entry.1 = name
    · simp [put, here]
    · have further : name ∈ (entry :: rest).map Prod.fst ↔ name ∈ rest.map Prod.fst := by
        simp [Ne.symm here]
      rw [put, if_neg here, List.map_cons, ih]
      by_cases among : name ∈ rest.map Prod.fst
      · rw [if_pos among, if_pos (further.mpr among), List.map_cons]
      · rw [if_neg among, if_neg (mt further.mp among), List.map_cons, List.cons_append]

end

/-! ## A sequence of writes -/

section

variable {α : Type}

/-- Each name at the place of its first write, with the value of its last. -/
def lastWrites (entries : List (String × α)) : Table α :=
  (distinct (entries.map Prod.fst)).filterMap fun name =>
    (entries.reverse.lookup name).map fun value => (name, value)

section

variable {entries : List (String × α)} {table : Table α} {name : String}

theorem putAll_cons (table : Table α) (entry : String × α) (rest : List (String × α)) :
    table.putAll (entry :: rest) = (table.put entry.1 entry.2).putAll rest := rfl

/-- The last write of a name counts, and without one the table stays as it was. -/
theorem get?_putAll (table : Table α) (entries : List (String × α)) (name : String) :
    (table.putAll entries).get? name = (entries.reverse.lookup name).or (table.get? name) := by
  induction entries generalizing table with
  | nil => rfl
  | cons entry rest ih =>
    rw [putAll_cons, ih, get?_put, List.reverse_cons, List.lookup_append]
    have first : List.lookup name [entry] = if name = entry.1 then some entry.2 else none :=
      get?_cons entry [] name
    rw [first, Option.or_assoc]
    by_cases same : name = entry.1 <;> simp [same]

theorem forall_mem_putAll {property : String × α → Prop} (new : ∀ entry ∈ entries, property entry)
    (old : ∀ entry ∈ table, property entry) : ∀ entry ∈ table.putAll entries, property entry := by
  induction entries generalizing table with
  | nil => exact old
  | cons entry rest ih =>
    obtain ⟨here, further⟩ := List.forall_mem_cons.mp new
    exact ih further (forall_mem_put here old)

theorem names_putAll (table : Table α) (entries : List (String × α)) :
    (table.putAll entries).names =
      (entries.map Prod.fst).foldl
        (fun seen name => if seen.contains name then seen else seen ++ [name]) table.names := by
  induction entries generalizing table with
  | nil => rfl
  | cons entry rest ih =>
    rw [putAll_cons, ih, names_put_eq, List.map_cons, List.foldl_cons]

theorem nodup_names_putAll (nodup : table.names.Nodup) (entries : List (String × α)) :
    (table.putAll entries).names.Nodup := by
  induction entries generalizing table with
  | nil => exact nodup
  | cons entry rest ih =>
    apply ih
    rw [names_put_eq]
    split
    · exact nodup
    · next fresh =>
      have different : entry.1 ∉ table.names := by simpa using fresh
      rw [List.nodup_append]
      refine ⟨nodup, by simp, ?_⟩
      rintro name member _ (_ | ⟨_, ⟨⟩⟩) rfl
      exact different member

theorem names_putAll_nil (entries : List (String × α)) :
    (putAll [] entries).names = distinct (entries.map Prod.fst) :=
  names_putAll [] entries

theorem nodup_distinct_names (entries : List (String × α)) :
    (distinct (entries.map Prod.fst)).Nodup := by
  rw [← names_putAll_nil]
  exact nodup_names_putAll (by simp [names]) entries

theorem mem_distinct_names :
    name ∈ distinct (entries.map Prod.fst) ↔ (entries.reverse.lookup name).isSome = true := by
  rw [← names_putAll_nil, ← has_iff_mem_names, has, get?_putAll]
  simp [get?]

/-- A table without repeated names is found again from its names and their values. -/
theorem eq_filterMap_names (nodup : table.names.Nodup) :
    table = table.names.filterMap fun name => (table.get? name).map fun value => (name, value) := by
  induction table with
  | nil => rfl
  | cons entry rest ih =>
    obtain ⟨fresh, restNodup⟩ := List.nodup_cons.mp nodup
    have others : ∀ name ∈ names rest,
        (get? (entry :: rest) name).map (fun value => (name, value)) =
          (get? rest name).map fun value => (name, value) := by
      intro name member
      have different : name ≠ entry.1 := fun same => fresh (same ▸ member)
      rw [get?_cons, if_neg different]
    have here : get? (entry :: rest) entry.1 = some entry.2 := by
      rw [get?_cons, if_pos rfl]
    calc entry :: rest
        = entry :: (names rest).filterMap fun name =>
            (get? rest name).map fun value => (name, value) := by
          rw [← ih restNodup]
      _ = entry :: (names rest).filterMap fun name =>
            (get? (entry :: rest) name).map fun value => (name, value) := by
          rw [List.filterMap_congr others]
      _ = (names (entry :: rest)).filterMap fun name =>
            (get? (entry :: rest) name).map fun value => (name, value) := by
          simp [names, here]

/-- What writing entry by entry leaves: the first places and the last values. -/
theorem putAll_nil_eq_lastWrites (entries : List (String × α)) :
    putAll [] entries = lastWrites entries := by
  have nodup : (putAll ([] : Table α) entries).names.Nodup :=
    nodup_names_putAll (by simp [names]) entries
  rw [eq_filterMap_names nodup, names_putAll_nil, lastWrites]
  congr 1
  funext name
  rw [get?_putAll]
  simp [get?]

theorem lastWrites_eq_map (entries : List (String × α)) (default : α) :
    lastWrites entries = (distinct (entries.map Prod.fst)).map fun name =>
      (name, (entries.reverse.lookup name).getD default) := by
  rw [lastWrites, List.filterMap_eq_map_iff_forall_eq_some]
  intro name named
  obtain ⟨value, held⟩ := Option.isSome_iff_exists.mp (mem_distinct_names.mp named)
  rw [held, Option.map_some, Option.getD_some]

theorem names_lastWrites (entries : List (String × α)) :
    (lastWrites entries).names = distinct (entries.map Prod.fst) := by
  rw [← putAll_nil_eq_lastWrites, names_putAll_nil]

/-- What is left are the entries behind which no other entry has their name. -/
theorem mem_lastWrites {entry : String × α} :
    entry ∈ lastWrites entries ↔ ∃ before behind, entries = before ++ entry :: behind ∧
      ∀ later ∈ behind, later.1 ≠ entry.1 := by
  have held : entry ∈ lastWrites entries ↔ entries.reverse.lookup entry.1 = some entry.2 := by
    simp only [lastWrites, List.mem_filterMap, Option.map_eq_some_iff]
    constructor
    · rintro ⟨_, _, _, found, rfl⟩
      exact found
    · intro found
      exact ⟨entry.1, mem_distinct_names.mpr (by rw [found]; rfl), entry.2, found, rfl⟩
  rw [held, List.lookup_eq_some_iff]
  constructor
  · rintro ⟨behind, before, same, others⟩
    refine ⟨before.reverse, behind.reverse, ?_, ?_⟩
    · rw [← List.reverse_eq_iff.mpr same.symm]
      simp
    · intro later member laterSame
      have differs := others later (List.mem_reverse.mp member)
      simp [laterSame] at differs
  · rintro ⟨before, behind, rfl, others⟩
    refine ⟨behind.reverse, before.reverse, by simp, ?_⟩
    intro later member
    exact bne_iff_ne.mpr (others later (List.mem_reverse.mp member)).symm

theorem put_of_not_mem {value : α} (fresh : name ∉ table.names) :
    put name value table = table ++ [(name, value)] := by
  induction table with
  | nil => rfl
  | cons entry rest ih =>
    obtain ⟨different, further⟩ := not_or.mp (mt List.mem_cons.mpr fresh)
    rw [put, if_neg (Ne.symm different), ih further, List.cons_append]

/-- Entries with different names are written as they stand. -/
theorem putAll_of_nodup (nodup : (table.names ++ entries.map Prod.fst).Nodup) :
    table.putAll entries = table ++ entries := by
  induction entries generalizing table with
  | nil => rw [List.append_nil]; rfl
  | cons entry rest ih =>
    have fresh : entry.1 ∉ table.names := fun member =>
      (List.nodup_append.mp nodup).2.2 _ member _ List.mem_cons_self rfl
    have further : (names (table ++ [entry]) ++ rest.map Prod.fst).Nodup := by
      simpa [names] using nodup
    rw [putAll_cons, put_of_not_mem fresh, ih further, List.append_assoc]
    rfl

/-! ## Distinct names -/

theorem distinct_concat (names : List String) (last : String) :
    distinct (names ++ [last]) =
      if last ∈ distinct names then distinct names else distinct names ++ [last] := by
  unfold distinct
  rw [List.foldl_append, List.foldl_cons, List.foldl_nil]
  simp only [List.contains_iff_mem]

theorem mem_distinct {names : List String} : name ∈ distinct names ↔ name ∈ names := by
  induction names using List.reverseRecOn with
  | nil => rfl
  | append_singleton names last ih =>
    rw [distinct_concat, List.mem_append, ← ih, List.mem_singleton]
    split
    · next known => exact ⟨.inl, fun either => either.elim id fun same => same ▸ known⟩
    · rw [List.mem_append, List.mem_singleton]

end

/-- Distinct names stand in the order in which the names are first met. -/
theorem pairwise_distinct_filter (keep : String → Bool) (names : List String) :
    (distinct (names.filter keep)).Pairwise fun earlier later =>
      names.idxOf earlier < names.idxOf later := by
  induction names using List.reverseRecOn with
  | nil => exact .nil
  | append_singleton names last ih =>
    have held : ∀ name ∈ distinct (names.filter keep), name ∈ names := fun name member =>
      (List.mem_filter.mp (mem_distinct.mp member)).1
    have samePlace : ∀ name ∈ names, (names ++ [last]).idxOf name = names.idxOf name :=
      fun name member => List.idxOf_append_of_mem member
    have inOrder : (distinct (names.filter keep)).Pairwise fun earlier later =>
        (names ++ [last]).idxOf earlier < (names ++ [last]).idxOf later := by
      refine ih.imp_of_mem ?_
      intro earlier later earlierHeld laterHeld before
      rwa [samePlace earlier (held earlier earlierHeld), samePlace later (held later laterHeld)]
    rw [List.filter_append]
    cases kept : keep last with
    | false => simpa [List.filter_cons, kept] using inOrder
    | true =>
      rw [List.filter_cons_of_pos kept, List.filter_nil, distinct_concat]
      split
      · exact inOrder
      · next fresh =>
        have absent : last ∉ names := fun member =>
          fresh (mem_distinct.mpr (List.mem_filter.mpr ⟨member, kept⟩))
        refine List.pairwise_append.mpr ⟨inOrder, List.pairwise_singleton _ _, ?_⟩
        intro earlier earlierHeld later laterHeld
        cases List.mem_singleton.mp laterHeld
        rw [samePlace earlier (held earlier earlierHeld),
          List.idxOf_append_of_notMem absent]
        exact Nat.lt_of_lt_of_le (List.idxOf_lt_length_of_mem (held earlier earlierHeld))
          (Nat.le_add_right _ _)

end

end TypedMarkup.Table
