import Lightspeed.Harness.Catalogs

/-!
# What takes an entry out of context

An entry leaves context by its id, or under its key. `entry_stays` says that every other event keeps it,
with its id, key, kind and source, whatever a replacement in place makes of its content.
-/

namespace Lightspeed.Harness

open Lib

variable {s t : CoreAgentState} {entry : CoreAgentEntry} {e written : ContextEntry}
  {entries : List ContextEntry}

/-- Whether an event takes an entry out of context, by its id or under its key. -/
def CoreAgentEvent.removesEntry (e : ContextEntry) : CoreAgentEvent → Bool
  | .context (.entriesApplied _ entries) =>
    e.key.isSome && entries.any (fun written => written.key == e.key)
  | .context (.entriesRemoved _ ids _) => decide (e.entryId ∈ ids)
  | .context (.keysRemoved _ keys) => e.key.any (fun key => decide (key ∈ keys))
  | .context (.keyPrefixReplaced _ keyPrefix _) => e.key.any (contextKeyStartsWith · keyPrefix)
  | _ => false

/-- The same entry, as far as a replacement in place leaves it. -/
structure ContextEntry.Stays (a b : ContextEntry) : Prop where
  entryId : b.entryId = a.entryId
  key : b.key = a.key
  kind : b.kind = a.kind
  source : b.source = a.source

theorem ContextEntry.Stays.refl (e : ContextEntry) : e.Stays e := ⟨rfl, rfl, rfl, rfl⟩

theorem ContextEntry.Stays.trans {a b c : ContextEntry} (hab : a.Stays b) (hbc : b.Stays c) :
    a.Stays c where
  entryId := hbc.entryId.trans hab.entryId
  key := hbc.key.trans hab.key
  kind := hbc.kind.trans hab.kind
  source := hbc.source.trans hab.source

theorem removesEntry_of_stays {a b : ContextEntry} (h : a.Stays b) (event : CoreAgentEvent) :
    event.removesEntry b = event.removesEntry a := by
  cases event with
  | context event => cases event <;> simp only [CoreAgentEvent.removesEntry, h.key, h.entryId]
  | _ => rfl

/-- Writing an entry under another key keeps an entry. -/
theorem stays_written (hinv : EntriesInv s) (he : e ∈ s.context.entries)
    (hother : e.key ≠ none → written.key ≠ e.key) (happly : applyEntry s written = .ok t) :
    e ∈ t.context.entries := by
  obtain ⟨-, -, -, hid, -⟩ := applyEntry_spec hinv happly
  have hne : ∀ key, written.key = some key → e.key ≠ some key := by
    intro key hkey hsame
    exact hother (by simp [hsame]) (hkey.trans hsame.symm)
  rcases applyEntry_entries happly with ⟨-, heq⟩ | ⟨key, hkey, -, heq⟩ | ⟨key, -, hkey, -, -, heq⟩
  · rw [heq]
    exact List.mem_append_left _ he
  · rw [heq]
    refine List.mem_append_left _ (List.mem_filter.mpr ⟨he, ?_⟩)
    simpa using hne key hkey
  · rw [heq, List.mem_filter]
    refine ⟨List.mem_append_left _ he, ?_⟩
    rw [decide_eq_true_eq, droppedIds_eq]
    intro hdropped
    obtain ⟨carrier, hcarrier, hsame⟩ := List.mem_map.mp (List.mem_of_mem_take hdropped)
    obtain ⟨hmem, hcarries⟩ := List.mem_filter.mp hcarrier
    rcases List.mem_append.mp hmem with hmem | hmem
    · obtain rfl := hinv.eq_of_id hmem he hsame
      exact hne key hkey (by simpa using hcarries)
    · -- The written entry has an id of its own.
      rw [List.mem_singleton.mp hmem, hid] at hsame
      have hbound := hinv.bound e he
      rw [← hsame] at hbound
      exact absurd hbound (Nat.not_succ_le_self _)

theorem stays_applied (hinv : EntriesInv s) (he : e ∈ s.context.entries)
    (hother : e.key ≠ none → ∀ written ∈ entries, written.key ≠ e.key)
    (happly : entries.foldlM applyEntry s = .ok t) : e ∈ t.context.entries := by
  induction entries generalizing s with
  | nil =>
    obtain rfl := pure_eq_ok.mp happly
    exact he
  | cons first rest ih =>
    obtain ⟨m, hm, hrest⟩ := foldlM_cons_eq_ok.mp happly
    obtain ⟨-, -, hinv', -⟩ := applyEntry_spec hinv hm
    have hmem := stays_written hinv he (fun hkey => hother hkey first List.mem_cons_self) hm
    exact ih hinv' hmem (fun hkey written hwritten =>
      hother hkey written (List.mem_cons_of_mem _ hwritten)) hrest

theorem stays_keysRemoved {keys : List ContextEntryKey} (he : e ∈ s.context.entries)
    (hother : ∀ key ∈ keys, e.key ≠ some key) :
    e ∈ (keys.foldl removeContextEntryByKey s).context.entries := by
  induction keys generalizing s with
  | nil => exact he
  | cons key rest ih =>
    refine ih (List.mem_filter.mpr ⟨he, ?_⟩) fun other hmem =>
      hother other (List.mem_cons_of_mem _ hmem)
    simpa using hother key List.mem_cons_self

/-- Replacements in place keep an entry when those of its id are of its key, kind and source. -/
theorem stays_replaced {replacements : List ContextEntry}
    (hsame : ∀ r ∈ replacements, r.entryId = e.entryId → e.Stays r)
    (h : ∃ kept ∈ entries, e.Stays kept) :
    ∃ kept ∈ replacements.foldl replaceEntry entries, e.Stays kept := by
  induction replacements generalizing entries with
  | nil => exact h
  | cons first rest ih =>
    refine ih (fun r hr => hsame r (List.mem_cons_of_mem _ hr)) ?_
    obtain ⟨kept, hkept, hstays⟩ := h
    refine ⟨_, List.mem_map.mpr ⟨kept, hkept, rfl⟩, ?_⟩
    split_ifs with hid
    · exact hsame first List.mem_cons_self (hid ▸ hstays.entryId)
    · exact hstays

/-- An entry stays in context until an event removes it. -/
theorem entry_stays (hinv : EntriesInv s) (he : e ∈ s.context.entries)
    (hkeeps : entry.event.removesEntry e = false) (happly : applyEvent s entry = .ok t) :
    ∃ kept ∈ t.context.entries, e.Stays kept := by
  have hstay : ∀ u : CoreAgentState, e ∈ u.context.entries → ∃ kept ∈ u.context.entries, e.Stays kept :=
    fun u hmem => ⟨e, hmem, .refl e⟩
  cases hcontext : entry.event.isContext with
  | false =>
    refine hstay t ?_
    rwa [(applyEvent_sameContext hcontext happly).entries]
  | true =>
    obtain ⟨-, m, hm, rfl⟩ := applyEvent_eq_ok.mp happly
    change ∃ kept ∈ m.context.entries, e.Stays kept
    cases hevent : entry.event with
    | context event =>
      rw [applyEventKind, hevent] at hm
      rw [hevent] at hkeeps
      cases event with
      | entriesApplied baseRevision entries =>
        obtain ⟨-, after, happlied, rfl⟩ := entriesApplied_eq_ok.mp hm
        refine hstay after (stays_applied hinv he ?_ (applyEntriesApplied_eq_ok.mp happlied).2.2)
        intro hkey written hwritten hsame
        have hremoves : (CoreAgentEvent.context (.entriesApplied baseRevision entries)).removesEntry e =
            true := by
          simp only [CoreAgentEvent.removesEntry, Bool.and_eq_true, List.any_eq_true, beq_iff_eq]
          exact ⟨Option.isSome_iff_ne_none.mpr hkey, written, hwritten, hsame⟩
        rw [hremoves] at hkeeps
        cases hkeeps
      | entriesRemoved baseRevision ids reason =>
        obtain ⟨-, -, -, -, -, rfl⟩ := entriesRemoved_eq_ok.mp hm
        refine hstay _ (List.mem_filter.mpr ⟨he, ?_⟩)
        simpa [CoreAgentEvent.removesEntry] using hkeeps
      | keysRemoved baseRevision keys =>
        obtain ⟨-, -, -, rfl⟩ := keysRemoved_eq_ok.mp hm
        refine hstay _ (stays_keysRemoved he fun key hmem hkey => ?_)
        simp [CoreAgentEvent.removesEntry, hkey, hmem] at hkeeps
      | keyPrefixReplaced baseRevision keyPrefix entries =>
        obtain ⟨-, hvalid, -, after, hreplaced, rfl⟩ := keyPrefixReplaced_eq_ok.mp hm
        have hoff : e.key.any (contextKeyStartsWith · keyPrefix) = false := hkeeps
        have hmem : e ∈ (removeContextEntriesByKeyPrefix s keyPrefix).context.entries :=
          List.mem_filter.mpr ⟨he, by simp [hoff]⟩
        have hinv' : EntriesInv (removeContextEntriesByKeyPrefix s keyPrefix) :=
          hinv.of_sublist List.filter_sublist
        split_ifs at hreplaced
        · cases hreplaced
          exact hstay _ hmem
        · refine hstay after (stays_applied hinv' hmem ?_ (applyEntriesApplied_eq_ok.mp hreplaced).2.2)
          -- What is written stands under the prefix, and the entry does not.
          intro _ written hwritten hsame
          simp only [validateKeyPrefixReplacementEntries, bind_eq_ok, require_eq_ok, orError_eq_ok,
            forM_eq_ok, exists_unit] at hvalid
          obtain ⟨key, hkey, hprefix, -⟩ := hvalid.2.2 written hwritten
          rw [← hsame, hkey, Option.any_some, hprefix] at hoff
          cases hoff
      | entriesReplaced baseRevision entries =>
        obtain ⟨-, -, -, hvalid, rfl⟩ := entriesReplaced_eq_ok.mp hm
        refine stays_replaced (fun r hr hid => ?_) ⟨e, he, .refl e⟩
        have hrecorded := hvalid r hr
        simp only [validateRecordedEntryReplacement, bind_eq_ok, require_eq_ok, orError_eq_ok,
          exists_unit] at hrecorded
        obtain ⟨active, hactive, ⟨hkind, hkey, hsource⟩, -⟩ := hrecorded
        rw [hid, entryById_of_mem hinv he] at hactive
        obtain rfl : e = active := Option.some.inj hactive
        exact ⟨hid, hkey, hkind, hsource⟩
      | compactionRequested baseRevision trigger plan =>
        obtain ⟨-, -, -, -, -, -, rfl⟩ := compactionRequested_eq_ok.mp hm
        exact hstay _ he
      | compactionQueued baseRevision =>
        obtain ⟨-, -, -, rfl⟩ := compactionQueued_eq_ok.mp hm
        exact hstay _ he
      | compactionFinished baseRevision status failureRef usage calls =>
        obtain ⟨-, -, -, rfl⟩ := compactionFinished_eq_ok.mp hm
        exact hstay _ he
    | _ => rw [hevent] at hcontext; cases hcontext

/-- What stays step by step stays over a list. -/
theorem entry_stays_list {log : List CoreAgentEntry} (hinv : EntriesInv s)
    (he : e ∈ s.context.entries) (hkeeps : ∀ entry ∈ log, entry.event.removesEntry e = false)
    (h : log.foldlM applyEvent s = .ok t) : ∃ kept ∈ t.context.entries, e.Stays kept := by
  induction log generalizing s e with
  | nil =>
    obtain rfl := pure_eq_ok.mp h
    exact ⟨e, he, .refl e⟩
  | cons first rest ih =>
    obtain ⟨m, hm, hrest⟩ := foldlM_cons_eq_ok.mp h
    obtain ⟨kept, hkept, hstays⟩ := entry_stays hinv he (hkeeps first List.mem_cons_self) hm
    have hlater : ∀ entry ∈ rest, entry.event.removesEntry kept = false := by
      intro entry hmem
      rw [removesEntry_of_stays hstays]
      exact hkeeps entry (List.mem_cons_of_mem _ hmem)
    obtain ⟨last, hlast, hstays'⟩ := ih (applyEvent_entriesInv hinv hm) hkept hlater hrest
    exact ⟨last, hlast, hstays.trans hstays'⟩

end Lightspeed.Harness
