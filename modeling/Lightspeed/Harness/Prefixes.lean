import Lightspeed.Harness.Accepted
import Lightspeed.Harness.Catalogs

/-!
# Replacing a key prefix

A replacement removes what stands under its prefix, then writes its entries as any other entries are
written. The links between the versions of a catalog are computed before that: a replacement that would be
the next version of a catalog names an entry that is gone by then, and is refused.
-/

namespace Lightspeed.Harness

open Lib

variable {sessionId : SessionId} {s t : CoreAgentState} {log : List CoreAgentEntry}
  {entry : ContextEntry} {fresh : List ContextEntry} {keyPrefix key : ContextEntryKey}
  {entries : OrdMap ContextEntryKey ContextEntryInput}

/-! ## Keys -/

/-- A key is under a prefix when the prefix and a dot begin the key and a dot. -/
theorem contextKeyStartsWith_iff :
    contextKeyStartsWith key keyPrefix = true ↔
      keyPrefix.toList ++ ['.'] <+: key.toList ++ ['.'] := by
  rw [contextKeyStartsWith, Bool.or_eq_true, beq_iff_eq, List.isPrefixOf_iff_prefix,
    List.prefix_concat_iff]
  refine or_congr_left ⟨fun h => h ▸ rfl, fun h => ?_⟩
  exact String.toList_inj.mp (List.append_cancel_right h).symm

/-- A prefix that covers a reserved key is itself reserved. -/
theorem reserved_of_covers (hreserved : contextKeyStartsWith key reservedRunContextKeyPrefix = true)
    (hcovers : contextKeyStartsWith key keyPrefix = true) :
    contextKeyStartsWith keyPrefix reservedRunContextKeyPrefix = true := by
  rw [contextKeyStartsWith_iff] at *
  rcases List.prefix_or_prefix_of_prefix hreserved hcovers with h | h
  · exact h
  · rcases List.prefix_concat_iff.mp h with heq | hwithin
    · exact heq ▸ List.prefix_rfl
    · -- The reserved key has no dot of its own.
      have hdot : '.' ∈ reservedRunContextKeyPrefix.toList := hwithin.subset (by simp)
      exact absurd hdot (by decide)

/-! ## What may be removed -/

/-- What is recorded on a run stands under no key that an edit may cover. -/
theorem prefix_removable (hstore : StoreInv s)
    (hexternal : ¬ contextKeyStartsWith keyPrefix reservedRunContextKeyPrefix = true) :
    validatePrefixEntriesRemovable s keyPrefix = .ok () := by
  unfold validatePrefixEntriesRemovable
  refine forM_eq_ok.mpr fun entry hentry => removable_eq_ok.mpr fun run hactive => ?_
  obtain ⟨hmem, hcovered⟩ := List.mem_filter.mp hentry
  obtain ⟨key, hkey, hcovers⟩ := (Option.any_eq_true _ _).mp hcovered
  have hnot : entry.entryId ∉ run.recordedIds := fun hrecorded =>
    hexternal (reserved_of_covers
      ((hstore.recorded run hactive).reserved _ hrecorded entry hmem rfl key hkey) hcovers)
  refine ⟨fun _ hinput => hnot (List.mem_append_left _ hinput), fun batch hbatch _ hsteering => ?_⟩
  exact hnot (List.mem_append_right _ (List.mem_flatMap.mpr ⟨batch, hbatch, hsteering⟩))

/-- After a prefix is removed, nothing stands under its keys. -/
theorem carriers_removed (hcovers : contextKeyStartsWith key keyPrefix = true) :
    carriers (removeContextEntriesByKeyPrefix s keyPrefix).context.entries key = [] := by
  refine List.filter_eq_nil_iff.mpr fun e he hkey => ?_
  have hkept := (List.mem_filter.mp he).2
  rw [beq_iff_eq] at hkey
  simp [hkey, hcovers] at hkept

/-! ## Entries under unused keys -/

/-- Edits under different keys that nobody holds, numbered from `last` on. -/
structure FreshAfter (s : CoreAgentState) (last : Nat) (fresh : List ContextEntry) : Prop where
  ids : fresh.map ContextEntry.entryId = List.range' (last + 1) fresh.length
  edits : ∀ e ∈ fresh, e.source = .contextEdit
  keyed : ∀ e ∈ fresh, ∃ key, e.key = some key ∧ carriers s.context.entries key = []
  distinct : (fresh.map ContextEntry.key).Nodup

/-- An entry under an unused key is taken when it supersedes nothing. -/
theorem applyEntry_fresh (hinv : EntriesInv s)
    (hid : entry.entryId = s.idCursors.lastContextEntryId + 1) (hsource : entry.source = .contextEdit)
    (hkey : entry.key = some key) (hfree : carriers s.context.entries key = []) :
    applyEntry s entry = .ok t ↔ entry.supersedes = none ∧ t = appendEntry s entry := by
  have hrecord : recordEntryMaterialization s entry = .ok s := by
    unfold recordEntryMaterialization
    rw [hsource]
  have hcurrent : currentKeyEntry s key = none := by
    rw [currentKeyEntry, ← List.getLast?_filter, ← carriers, hfree]
    rfl
  have htarget : supersedeTarget s key entry.kind = none := by
    simp [supersedeTarget, hcurrent]
  have hremoved : removeContextEntryByKey s key = s := by
    have hall : s.context.entries.filter (fun e => e.key != some key) = s.context.entries := by
      refine List.filter_eq_self.mpr fun e he => ?_
      have hnot := List.filter_eq_nil_iff.mp hfree e he
      simpa using hnot
    rw [removeContextEntryByKey, hall]
    rfl
  have hreplaced : ∀ m, replaceKeyed s entry = .ok m ↔ entry.supersedes = none ∧ m = s := by
    intro m
    unfold replaceKeyed
    simp only [hkey, htarget, bind_eq_ok, require_eq_ok, exists_unit, Except.ok.injEq,
      Option.isNone_none, if_true, hremoved]
    exact and_congr_right fun _ => eq_comm
  have hcap : entry.supersedes = none → capVersions (appendEntry s entry) entry = appendEntry s entry := by
    intro hnone
    simp [capVersions, hkey, hnone]
  rw [applyEntry_eq_ok]
  constructor
  · rintro ⟨-, recorded, replaced, hrec, hrep, rfl⟩
    obtain rfl : s = recorded := Except.ok.inj (hrecord.symm.trans hrec)
    obtain ⟨hnone, rfl⟩ := (hreplaced replaced).mp hrep
    exact ⟨hnone, hcap hnone⟩
  · rintro ⟨hnone, rfl⟩
    exact ⟨validateNextEntry_next hinv hid, s, s, hrecord, (hreplaced s).mpr ⟨hnone, rfl⟩,
      (hcap hnone).symm⟩

/-- Entries under unused keys are taken when none of them supersedes anything. -/
theorem applyEntries_fresh (hinv : EntriesInv s)
    (hfresh : FreshAfter s s.idCursors.lastContextEntryId fresh) :
    fresh.foldlM applyEntry s = .ok t ↔
      (∀ e ∈ fresh, e.supersedes = none) ∧ t = s.appendEntries fresh := by
  induction fresh generalizing s with
  | nil =>
    rw [List.foldlM_nil, pure_eq_ok]
    simp [CoreAgentState.appendEntries, eq_comm]
  | cons first rest ih =>
    obtain ⟨hids, hedits, hkeyed, hdistinct⟩ := hfresh
    rw [List.map_cons, List.length_cons, List.range'_succ, List.cons.injEq] at hids
    rw [List.map_cons, List.nodup_cons] at hdistinct
    obtain ⟨hid, hids⟩ := hids
    obtain ⟨key, hkey, hfree⟩ := hkeyed first List.mem_cons_self
    have hstep := fun m => applyEntry_fresh (t := m) hinv hid (hedits first List.mem_cons_self) hkey hfree
    have hlast : (appendEntry s first).idCursors.lastContextEntryId =
        s.idCursors.lastContextEntryId + 1 := hid
    have hrest : FreshAfter (appendEntry s first)
        (appendEntry s first).idCursors.lastContextEntryId rest := by
      refine ⟨hlast ▸ hids, fun e he => hedits e (List.mem_cons_of_mem _ he), fun e he => ?_,
        hdistinct.2⟩
      obtain ⟨k, hk, hnone⟩ := hkeyed e (List.mem_cons_of_mem _ he)
      refine ⟨k, hk, ?_⟩
      have hne : first.key ≠ some k := fun heq =>
        hdistinct.1 (List.mem_map.mpr ⟨e, he, hk.trans heq.symm⟩)
      show carriers (s.context.entries ++ [first]) k = []
      rw [carriers_concat, if_neg hne, hnone]
    have happended : (appendEntry s first).appendEntries rest = s.appendEntries (first :: rest) := by
      simp only [CoreAgentState.appendEntries, appendEntry, hid, List.append_assoc,
        List.singleton_append, List.length_cons]
      rw [Nat.add_assoc, Nat.add_comm 1]
    rw [foldlM_cons_eq_ok, List.forall_mem_cons, and_assoc, ← happended, ← ih (hinv.appendEntry hid) hrest]
    constructor
    · rintro ⟨m, hm, hdone⟩
      obtain ⟨hnone, rfl⟩ := (hstep m).mp hm
      exact ⟨hnone, hdone⟩
    · rintro ⟨hnone, hdone⟩
      exact ⟨_, (hstep _).mpr ⟨hnone, rfl⟩, hdone⟩

/-! ## What a replacement writes -/

/-- The entries that `ReplaceContextPrefix` proposes. -/
def replacementEntries (s : CoreAgentState) (entries : OrdMap ContextEntryKey ContextEntryInput) :
    List ContextEntry :=
  contextEntriesFromInputs s
    (entries.entries.map (fun (key, entry) => (some key, .contextEdit, entry)))

theorem contextEntriesAfter_ids {last : Nat} {inputs : List SourcedInput} :
    (contextEntriesAfter s last inputs).map ContextEntry.entryId =
      List.range' (last + 1) (contextEntriesAfter s last inputs).length := by
  induction inputs generalizing last with
  | nil => rfl
  | cons first rest ih =>
    rw [contextEntriesAfter, List.map_cons, List.length_cons, List.range'_succ, ih]
    rfl

/-- Numbering keeps what was to be numbered. -/
theorem contextEntriesAfter_sourced {last : Nat} {inputs : List SourcedInput} :
    (contextEntriesAfter s last inputs).map (fun e => (e.key, e.source, e.toInput)) = inputs := by
  induction inputs generalizing last with
  | nil => rfl
  | cons first rest ih =>
    rw [contextEntriesAfter, List.map_cons, ih]
    rfl

theorem replacementEntries_pairs (entries : OrdMap ContextEntryKey ContextEntryInput) :
    (replacementEntries s entries).map (fun e => (e.key, e.toInput)) =
      entries.entries.map (fun (key, entry) => (some key, entry)) := by
  have hsourced := congrArg (List.map fun sourced : SourcedInput => (sourced.1, sourced.2.2))
    (@contextEntriesAfter_sourced s s.idCursors.lastContextEntryId
      (entries.entries.map fun (key, entry) => (some key, .contextEdit, entry)))
  rw [List.map_map, List.map_map] at hsourced
  exact hsourced

/-- An entry of a replacement is an edit under its key, and is linked to what the key holds. -/
theorem mem_replacementEntries {e : ContextEntry} (h : e ∈ replacementEntries s entries) :
    ∃ key, e.key = some key ∧ entries.get? key = some e.toInput ∧ e.source = .contextEdit ∧
      e.supersedes = supersedeTarget s key e.kind := by
  obtain ⟨sourced, hmem, id, rfl⟩ := mem_contextEntriesAfter h
  obtain ⟨⟨key, input⟩, hentry, rfl⟩ := List.mem_map.mp hmem
  exact ⟨key, rfl, OrdMap.get?_eq_some_iff.mpr hentry, rfl, rfl⟩

theorem exists_replacementEntry {input : ContextEntryInput} (h : entries.get? key = some input) :
    ∃ e ∈ replacementEntries s entries, e.key = some key ∧ e.toInput = input := by
  have hpair : (some key, input) ∈
      (replacementEntries s entries).map (fun e => (e.key, e.toInput)) := by
    rw [replacementEntries_pairs]
    exact List.mem_map.mpr ⟨(key, input), OrdMap.get?_eq_some_iff.mp h, rfl⟩
  obtain ⟨e, he, heq⟩ := List.mem_map.mp hpair
  obtain ⟨hkey, hinput⟩ := Prod.mk.inj heq
  exact ⟨e, he, hkey, hinput⟩

theorem replacementEntries_keys :
    (replacementEntries s entries).map ContextEntry.key = entries.keys.map some := by
  have hpairs := congrArg (List.map Prod.fst) (replacementEntries_pairs (s := s) entries)
  rw [List.map_map, List.map_map] at hpairs
  rw [OrdMap.keys, List.map_map]
  exact hpairs

/-- The keys of a replacement differ. -/
theorem replacementEntries_distinct : ((replacementEntries s entries).map ContextEntry.key).Nodup := by
  rw [replacementEntries_keys]
  exact entries.keys_nodup.map (Option.some_injective _)

/-- What a replacement writes at a key is what it was given for the key. -/
theorem find_replacementEntries :
    ((replacementEntries s entries).reverse.find? (fun e => e.key == some key)).map
      ContextEntry.toInput = entries.get? key := by
  cases hget : entries.get? key with
  | none =>
    rw [Option.map_eq_none_iff]
    refine List.find?_eq_none.mpr fun e he hkey => ?_
    obtain ⟨k, hk, hinput, -⟩ := mem_replacementEntries (List.mem_reverse.mp he)
    rw [beq_iff_eq, hk, Option.some.injEq] at hkey
    rw [hkey, hget] at hinput
    cases hinput
  | some input =>
    obtain ⟨e, he, hkey, rfl⟩ := exists_replacementEntry (s := s) hget
    cases hfound : (replacementEntries s entries).reverse.find? (fun e => e.key == some key) with
    | none =>
      have hnot := List.find?_eq_none.mp hfound e (List.mem_reverse.mpr he)
      simp [hkey] at hnot
    | some other =>
      have hother := List.find?_some hfound
      rw [beq_iff_eq] at hother
      have hmem := List.mem_reverse.mp (List.mem_of_find?_eq_some hfound)
      obtain rfl : other = e :=
        List.inj_on_of_nodup_map replacementEntries_distinct hmem he (hother.trans hkey.symm)
      rfl

theorem validateNoDuplicateEntryKeys_nodup {seen : List ContextEntryKey} {es : List ContextEntry}
    (hnodup : (es.map ContextEntry.key).Nodup) (hseen : ∀ e ∈ es, ∀ k, e.key = some k → k ∉ seen) :
    validateNoDuplicateEntryKeys seen es = .ok () := by
  induction es generalizing seen with
  | nil => rfl
  | cons first rest ih =>
    rw [List.map_cons, List.nodup_cons] at hnodup
    rw [validateNoDuplicateEntryKeys]
    cases hkey : first.key with
    | none => exact ih hnodup.2 fun e he => hseen e (List.mem_cons_of_mem _ he)
    | some k =>
      refine bind_eq_ok.mpr ⟨(), require_eq_ok.mpr (hseen first List.mem_cons_self k hkey), ?_⟩
      refine ih hnodup.2 fun e he k' hk' => ?_
      rw [List.mem_cons, not_or]
      refine ⟨fun heq => hnodup.1 ?_, hseen e (List.mem_cons_of_mem _ he) k' hk'⟩
      exact List.mem_map.mpr ⟨e, he, by rw [hk', heq, hkey]⟩

/-! ## What a prefix holds -/

/-- The keys under a prefix hold exactly the entries of a map. -/
def PrefixHolds (s : CoreAgentState) (keyPrefix : ContextEntryKey)
    (entries : OrdMap ContextEntryKey ContextEntryInput) : Prop :=
  ∀ key, contextKeyStartsWith key keyPrefix = true →
    (currentKeyEntry s key).map ContextEntry.toInput = entries.get? key

/-- The entries that stand under no key of a prefix. -/
def entriesOutside (s : CoreAgentState) (keyPrefix : ContextEntryKey) : List ContextEntry :=
  s.context.entries.filter (fun entry => !entry.key.any (contextKeyStartsWith · keyPrefix))

/-- The map that a replacement is compared with. -/
theorem get?_active (key : ContextEntryKey) :
    (OrdMap.ofList (s.context.entries.filterMap fun entry =>
      (entry.key.filter (contextKeyStartsWith · keyPrefix)).map
        (fun key => (key, entry.toInput)))).get? key =
      if contextKeyStartsWith key keyPrefix then (currentKeyEntry s key).map ContextEntry.toInput
      else none := by
  have hany : ∀ e : ContextEntry,
      ((e.key.filter (contextKeyStartsWith · keyPrefix)).map fun k => (k, e.toInput)).any
          (fun p => p.1 == key) =
        (contextKeyStartsWith key keyPrefix && e.key == some key) := by
    intro e
    cases e.key with
    | none => simp
    | some k =>
      by_cases hk : k = key
      · subst hk
        by_cases hcovers : contextKeyStartsWith k keyPrefix = true <;> simp [hcovers, Option.filter]
      · by_cases hcovers : contextKeyStartsWith k keyPrefix = true <;> simp [hcovers, hk, Option.filter]
  rw [OrdMap.get?_ofList_eq, ← List.filterMap_reverse, List.find?_filterMap]
  simp only [hany]
  split_ifs with hcovers
  · simp only [hcovers, Bool.true_and]
    rw [currentKeyEntry]
    cases hfound : s.context.entries.reverse.find? (fun e => e.key == some key) with
    | none => rfl
    | some e =>
      have hkey := List.find?_some hfound
      rw [beq_iff_eq] at hkey
      simp [hkey, hcovers, Option.filter]
  · have hnone : s.context.entries.reverse.find?
        (fun e => contextKeyStartsWith key keyPrefix && e.key == some key) = none :=
      List.find?_eq_none.mpr (by simp [hcovers])
    rw [hnone]
    rfl

/-- A replacement proposes nothing when the prefix already holds its entries. -/
theorem prefixReplacementIsNoop_iff
    (hkeys : ∀ key input, entries.get? key = some input → contextKeyStartsWith key keyPrefix = true) :
    contextPrefixReplacementIsNoop s keyPrefix entries = true ↔ PrefixHolds s keyPrefix entries := by
  rw [contextPrefixReplacementIsNoop, beq_iff_eq]
  constructor
  · intro hsame key hcovers
    rw [← hsame, get?_active, if_pos hcovers]
  · intro hholds
    refine OrdMap.ext_get? fun key => ?_
    rw [get?_active]
    split_ifs with hcovers
    · exact hholds key hcovers
    · cases hget : entries.get? key with
      | none => rfl
      | some input => exact absurd (hkeys key input hget) hcovers

/-- Whether no entry of a replacement is a catalog whose key holds a catalog. -/
def NoCatalogMeets (s : CoreAgentState) (entries : OrdMap ContextEntryKey ContextEntryInput) : Prop :=
  ∀ key input, entries.get? key = some input → isSupersedableCatalogKind input.kind = true →
    ∀ current, currentKeyEntry s key = some current → isSupersedableCatalogKind current.kind = false

/-- The links of a replacement are empty when no catalog meets another. -/
theorem replacementEntries_unlinked :
    (∀ e ∈ replacementEntries s entries, e.supersedes = none) ↔ NoCatalogMeets s entries := by
  have htarget : ∀ key kind, supersedeTarget s key kind = none ↔
      (isSupersedableCatalogKind kind = true → ∀ current, currentKeyEntry s key = some current →
        isSupersedableCatalogKind current.kind = false) := by
    intro key kind
    unfold supersedeTarget
    split_ifs with hkind
    · rw [Option.map_eq_none_iff, Option.filter_eq_none_iff]
      simp [hkind]
    · simp [hkind]
  constructor
  · intro hnone key input hget
    obtain ⟨e, he, hkey, rfl⟩ := exists_replacementEntry (s := s) hget
    obtain ⟨k, hk, -, -, hsupersedes⟩ := mem_replacementEntries he
    obtain rfl : key = k := Option.mem_unique hkey hk
    exact (htarget key e.kind).mp (hsupersedes.symm.trans (hnone e he))
  · intro hmeets e he
    obtain ⟨key, -, hget, -, hsupersedes⟩ := mem_replacementEntries he
    rw [hsupersedes]
    exact (htarget key e.kind).mpr (hmeets key e.toInput hget)

/-! ## Replacing -/

/-- What passes `validate_external_context_prefix_replacement`. -/
theorem prefixReplacement_valid
    (h : validateExternalContextPrefixReplacement keyPrefix entries = .ok ()) :
    ¬ contextKeyStartsWith keyPrefix reservedRunContextKeyPrefix = true ∧
      ∀ key input, entries.get? key = some input → contextKeyStartsWith key keyPrefix = true := by
  simp only [validateExternalContextPrefixReplacement, validateExternalContextKey, bind_eq_ok,
    require_eq_ok, forM_eq_ok, exists_unit] at h
  refine ⟨h.1, fun key input hget => ?_⟩
  exact (h.2 (key, input) (OrdMap.get?_eq_some_iff.mp hget)).2.1

/-- The reducer takes a replacement exactly when none of its entries is linked. -/
theorem keyPrefixReplaced_iff (hinv : EntriesInv s) (hstore : StoreInv s)
    (hvalid : validateExternalContextPrefixReplacement keyPrefix entries = .ok ())
    (hchanges : ¬ PrefixHolds s keyPrefix entries) :
    applyContextEvent s
        (.keyPrefixReplaced s.context.revision keyPrefix (replacementEntries s entries)) = .ok t ↔
      NoCatalogMeets s entries ∧ t = bumpContextRevision
        ((removeContextEntriesByKeyPrefix s keyPrefix).appendEntries (replacementEntries s entries)) := by
  obtain ⟨hexternal, hkeys⟩ := prefixReplacement_valid hvalid
  have hremoved : EntriesInv (removeContextEntriesByKeyPrefix s keyPrefix) :=
    hinv.of_sublist List.filter_sublist
  have hchecked : validateKeyPrefixReplacementEntries s keyPrefix (replacementEntries s entries) =
      .ok () := by
    simp only [validateKeyPrefixReplacementEntries, bind_eq_ok, require_eq_ok, forM_eq_ok,
      orError_eq_ok, exists_unit]
    refine ⟨?_, validateNoDuplicateEntryKeys_nodup replacementEntries_distinct (by simp),
      fun e he => ?_⟩
    · rintro ⟨hnone, hactive⟩
      -- Nothing to write and nothing to remove: the prefix is as it should be.
      refine hchanges fun key hcovers => ?_
      have hempty : entries.get? key = none := by
        rw [← find_replacementEntries (s := s), hnone]
        rfl
      rw [hempty, Option.map_eq_none_iff]
      refine List.find?_eq_none.mpr fun e he hkey => hactive ?_
      rw [beq_iff_eq] at hkey
      exact List.any_eq_true.mpr ⟨e, List.mem_reverse.mp he, by simp [hkey, hcovers]⟩
    · obtain ⟨key, hkey, hget, hsource, -⟩ := mem_replacementEntries he
      exact ⟨key, hkey, hkeys key _ hget, hsource⟩
  have hfresh : FreshAfter (removeContextEntriesByKeyPrefix s keyPrefix)
      s.idCursors.lastContextEntryId (replacementEntries s entries) := by
    refine ⟨contextEntriesAfter_ids, fun e he => ?_, fun e he => ?_, replacementEntries_distinct⟩
    · obtain ⟨-, -, -, hsource, -⟩ := mem_replacementEntries he
      exact hsource
    · obtain ⟨key, hkey, hget, -⟩ := mem_replacementEntries he
      exact ⟨key, hkey, carriers_removed (hkeys key _ hget)⟩
  have happlied := fun m => applyEntries_fresh (t := m) hremoved hfresh
  rw [← replacementEntries_unlinked, keyPrefixReplaced_eq_ok]
  constructor
  · rintro ⟨-, -, -, m, hm, rfl⟩
    split_ifs at hm with hnone
    · cases hm
      refine ⟨by simp [hnone], ?_⟩
      simp [hnone, CoreAgentState.appendEntries]
    · obtain ⟨-, -, hm⟩ := applyEntriesApplied_eq_ok.mp hm
      obtain ⟨hunlinked, rfl⟩ := (happlied m).mp hm
      exact ⟨hunlinked, rfl⟩
  · rintro ⟨hunlinked, rfl⟩
    refine ⟨rfl, hchecked, prefix_removable hstore hexternal, _, ?_, rfl⟩
    split_ifs with hnone
    · simp [hnone, CoreAgentState.appendEntries]
    · exact applyEntriesApplied_eq_ok.mpr ⟨hnone,
        validateNoDuplicateEntryKeys_nodup replacementEntries_distinct (by simp),
        (happlied _).mpr ⟨hunlinked, rfl⟩⟩

/-! ## The command -/

/-- The event that `ReplaceContextPrefix` proposes. -/
def prefixReplacedEvent (s : CoreAgentState) (keyPrefix : ContextEntryKey)
    (entries : OrdMap ContextEntryKey ContextEntryInput) : CoreAgentEvent :=
  .context (.keyPrefixReplaced s.context.revision keyPrefix (replacementEntries s entries))

/-- A command that is admitted into an open session that no compaction holds up. -/
theorem replaceContextPrefix_eq {expectedRevision : Option Nat} {ms : Nat}
    (hopen : s.lifecycle.status = .open) (hpending : s.context.compaction.isPending = false)
    (hvalid : validateExternalContextPrefixReplacement keyPrefix entries = .ok ())
    (hrevision : validateExpectedRevision "context" expectedRevision s.context.revision = .ok ()) :
    admitCommand s ms (.replaceContextPrefix expectedRevision keyPrefix entries) =
      .ok (if contextPrefixReplacementIsNoop s keyPrefix entries then []
        else [sessionProposal (prefixReplacedEvent s keyPrefix entries)]) := by
  have heditable : requireEditableContext s = .ok () := by
    simp [requireEditableContext, requireOpen, requireNoPendingCompaction, bind_eq_ok, hopen, hpending]
  have hpolicy : policy (validateExternalContextPrefixReplacement keyPrefix entries) = .ok () :=
    policy_eq_ok.mpr hvalid
  show replaceContextPrefix s expectedRevision keyPrefix entries = _
  unfold replaceContextPrefix
  rw [heditable, hpolicy, hrevision]
  show (if _ then _ else _) = _
  split_ifs <;> rfl

/-- A prefix is replaced by the command: what it proposes the reducer takes, the keys under the prefix
then hold its entries and the others are as they were, and the same command proposes nothing more. -/
structure ReplacesPrefix (s : CoreAgentState) (ms : Nat) (expectedRevision : Option Nat)
    (keyPrefix : ContextEntryKey) (entries : OrdMap ContextEntryKey ContextEntryInput)
    (proposals : List CoreAgentEventProposal) (t : CoreAgentState) : Prop where
  admitted : admitCommand s ms (.replaceContextPrefix expectedRevision keyPrefix entries) =
    .ok proposals
  accepted : (proposals = [] ∧ t = s) ∨ ∃ proposal fresh, proposals = [proposal] ∧
    proposal.event = .context (.keyPrefixReplaced s.context.revision keyPrefix fresh) ∧
    applyEvent s ⟨s.nextSeq, ms, proposal.joins, proposal.event⟩ = .ok t
  holds : PrefixHolds t keyPrefix entries
  outside : entriesOutside t keyPrefix = entriesOutside s keyPrefix
  again : ∀ later, admitCommand t later (.replaceContextPrefix none keyPrefix entries) = .ok []
  same : ∀ later proposals', admitCommand t later
    (.replaceContextPrefix expectedRevision keyPrefix entries) = .ok proposals' → proposals' = []

/-- What the keys hold once the prefix is removed and its entries are written. -/
theorem prefixHolds_replaced
    (hkeys : ∀ key input, entries.get? key = some input → contextKeyStartsWith key keyPrefix = true)
    (hcontext : t.context.entries = entriesOutside s keyPrefix ++ replacementEntries s entries) :
    PrefixHolds t keyPrefix entries ∧ entriesOutside t keyPrefix = entriesOutside s keyPrefix := by
  constructor
  · intro key hcovers
    have hold : (entriesOutside s keyPrefix).reverse.find? (fun e => e.key == some key) = none := by
      refine List.find?_eq_none.mpr fun e he hkey => ?_
      have hout := (List.mem_filter.mp (List.mem_reverse.mp he)).2
      rw [beq_iff_eq] at hkey
      simp [hkey, hcovers] at hout
    rw [currentKeyEntry, hcontext, List.reverse_append, List.find?_append, hold, Option.or_none]
    exact find_replacementEntries
  · have hnone : (replacementEntries s entries).filter
        (fun entry => !entry.key.any (contextKeyStartsWith · keyPrefix)) = [] := by
      refine List.filter_eq_nil_iff.mpr fun e he => ?_
      obtain ⟨key, hkey, hget, -⟩ := mem_replacementEntries he
      simp [hkey, hkeys key _ hget]
    rw [entriesOutside, hcontext, List.filter_append, hnone, List.append_nil]
    exact List.filter_eq_self.mpr fun e he => (List.mem_filter.mp he).2

/-- A prefix is replaced unless one of the entries is a catalog whose key holds a catalog already, and a
replacement that changes nothing is none. -/
theorem prefix_replaced_iff {expectedRevision : Option Nat} {ms : Nat} (h : Reachable sessionId s log)
    (hopen : s.lifecycle.status = .open) (hpending : s.context.compaction.isPending = false)
    (hvalid : validateExternalContextPrefixReplacement keyPrefix entries = .ok ())
    (hrevision : validateExpectedRevision "context" expectedRevision s.context.revision = .ok ()) :
    (∃ proposals t, ReplacesPrefix s ms expectedRevision keyPrefix entries proposals t) ↔
      PrefixHolds s keyPrefix entries ∨ NoCatalogMeets s entries := by
  obtain ⟨-, hkeys⟩ := prefixReplacement_valid hvalid
  have hadmitted : ∀ ms, admitCommand s ms (.replaceContextPrefix expectedRevision keyPrefix entries) = _ :=
    fun _ => replaceContextPrefix_eq hopen hpending hvalid hrevision
  have hnoop := prefixReplacementIsNoop_iff (s := s) hkeys
  have hinv := (reachable_inv h).1.entries
  by_cases hholds : PrefixHolds s keyPrefix entries
  · refine iff_of_true ⟨[], s, ?_⟩ (.inl hholds)
    have hnothing := fun ms => (hadmitted ms).trans (by rw [if_pos (hnoop.mpr hholds)])
    refine ⟨hnothing ms, .inl ⟨rfl, rfl⟩, hholds, rfl, fun later => ?_, fun later proposals' hp => ?_⟩
    · rw [replaceContextPrefix_eq hopen hpending hvalid rfl, if_pos (hnoop.mpr hholds)]
    · exact (Except.ok.inj ((hnothing later).symm.trans hp)).symm
  have hproposed := fun ms => (hadmitted ms).trans (by rw [if_neg (mt hnoop.mp hholds)])
  have hreduced := fun m => keyPrefixReplaced_iff (t := m) hinv (reachable_store h) hvalid hholds
  rw [or_iff_right hholds]
  constructor
  · rintro ⟨proposals, t, hreplaces⟩
    obtain rfl := Except.ok.inj ((hproposed ms).symm.trans hreplaces.admitted)
    rcases hreplaces.accepted with ⟨hnil, -⟩ | ⟨proposal, fresh, heq, -, happly⟩
    · cases hnil
    · obtain rfl := List.head_eq_of_cons_eq heq
      obtain ⟨-, m, hm, -⟩ := applyEvent_eq_ok.mp happly
      exact ((hreduced m).mp hm).1
  · intro hmeets
    let m := bumpContextRevision
      ((removeContextEntriesByKeyPrefix s keyPrefix).appendEntries (replacementEntries s entries))
    have hm := (hreduced m).mpr ⟨hmeets, rfl⟩
    obtain ⟨hafter, houtside⟩ :=
      prefixHolds_replaced (s := s) (t := s.reducedAt m) hkeys rfl
    have hnoop' := (prefixReplacementIsNoop_iff (s := s.reducedAt m) hkeys).mpr hafter
    have hlater : ∀ later, admitCommand (s.reducedAt m) later
        (.replaceContextPrefix none keyPrefix entries) = .ok [] := by
      intro later
      rw [replaceContextPrefix_eq (s := s.reducedAt m) hopen hpending hvalid rfl, if_pos hnoop']
    refine ⟨_, s.reducedAt m, hproposed ms, .inr ⟨_, _, rfl, rfl, ?_⟩, hafter, houtside, hlater,
      fun later proposals' hp => ?_⟩
    · exact applyEvent_eq_ok.mpr ⟨rfl, m, hm, rfl⟩
    · cases expectedRevision with
      | none => exact (Except.ok.inj ((hlater later).symm.trans hp)).symm
      | some expected =>
        have hold : expected = s.context.revision := require_eq_ok.mp hrevision
        have hp : replaceContextPrefix (s.reducedAt m) (some expected) keyPrefix entries =
          .ok proposals' := hp
        simp only [replaceContextPrefix, bind_eq_ok, validateExpectedRevision, require_eq_ok,
          exists_unit] at hp
        have hnew : expected = s.context.revision + 1 := hp.2.2.1
        omega

/-- A session whose context holds one catalog. -/
def sampleCatalog : List (Nat × DriveInput) :=
  [(0, .admitCommand (.openSession sampleConfig)),
    (1, .admitCommand (.upsertContext none "client.skills"
      { kind := .catalog "Skills", content := { contentRef := ⟨"a"⟩ } }))]

/-- Another catalog under the same key. -/
def otherCatalog : OrdMap ContextEntryKey ContextEntryInput :=
  .ofList [("client.skills", { kind := .catalog "Skills", content := { contentRef := ⟨"b"⟩ } })]

/-- A note beside the catalog. -/
def noteEntry : OrdMap ContextEntryKey ContextEntryInput :=
  .ofList [("client.skills.note", { kind := .message .user, content := { contentRef := ⟨"n"⟩ } })]

theorem prefix_replaced_iff_sampleCatalog : ∃ s log,
    (drive "session").exec sampleCatalog = some (s, log) ∧
      ((∃ proposals t, ReplacesPrefix s 2 none "client" noteEntry proposals t) ↔
        PrefixHolds s "client" noteEntry ∨ NoCatalogMeets s noteEntry) := by
  obtain ⟨⟨s, log⟩, hexec, hopen, hidle⟩ : ∃ p ∈ (drive "session").exec sampleCatalog,
      p.1.lifecycle.status = .open ∧ p.1.context.compaction.isPending = false := by decide +kernel
  have hvalid : validateExternalContextPrefixReplacement "client" noteEntry = .ok () := by
    decide +kernel
  exact ⟨s, log, hexec, prefix_replaced_iff (EventSource.exec_reaches hexec) hopen hidle hvalid rfl⟩

/-- The next version of a catalog is admitted by a replacement of its key, and then refused. -/
theorem nextCatalog_refused : ∃ s log,
    (drive "session").exec sampleCatalog = some (s, log) ∧ s.lifecycle.status = .open ∧
      s.context.compaction.isPending = false ∧
      validateExternalContextPrefixReplacement "client.skills" otherCatalog = .ok () ∧
      ¬ ∃ proposals t, ReplacesPrefix s 2 none "client.skills" otherCatalog proposals t := by
  obtain ⟨⟨s, log⟩, hexec, hopen, hidle, hrefused⟩ : ∃ p ∈ (drive "session").exec sampleCatalog,
      p.1.lifecycle.status = .open ∧ p.1.context.compaction.isPending = false ∧
        ((admitCommand p.1 2 (.replaceContextPrefix none "client.skills" otherCatalog)).toOption.bind
          List.head?).any (fun proposal =>
            !(applyEvent p.1 ⟨p.1.nextSeq, 2, proposal.joins, proposal.event⟩).isOk) = true := by
    decide +kernel
  have hvalid : validateExternalContextPrefixReplacement "client.skills" otherCatalog = .ok () := by
    decide +kernel
  refine ⟨s, log, hexec, hopen, hidle, hvalid, ?_⟩
  rintro ⟨proposals, t, hreplaces⟩
  dsimp only at hrefused
  rw [hreplaces.admitted] at hrefused
  rcases hreplaces.accepted with ⟨rfl, -⟩ | ⟨proposal, -, rfl, -, happly⟩
  · cases hrefused
  · dsimp only [Except.toOption, Option.bind_some, List.head?_cons, Option.any_some] at hrefused
    rw [happly] at hrefused
    cases hrefused

end Lightspeed.Harness
