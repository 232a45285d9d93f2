import Lightspeed.Lib.Lists
import Lightspeed.Harness.Contexts
import Lightspeed.Harness.ToolGroups

/-!
# The context store

Active entries stand in the order of their ids, and no id is given out twice. Under a key stands one
entry, or the last versions of a catalog, each superseding the one before it. A write, an edit and a
compaction all keep that: they take the oldest versions or all of them, and never one out of the middle.
-/

namespace Lightspeed.Harness

open Lib

variable {sessionId : SessionId} {base s t : CoreAgentState} {input : DriveInput}
  {entry : CoreAgentEntry} {log : List CoreAgentEntry} {entries : List ContextEntry}

/-! ## Versions -/

/-- The active entries under a key, oldest first. -/
def carriers (entries : List ContextEntry) (key : ContextEntryKey) : List ContextEntry :=
  entries.filter (fun entry => entry.key == some key)

/-- A catalog, and its next version. -/
structure Supersedes (a b : ContextEntry) : Prop where
  old : isSupersedableCatalogKind a.kind = true
  new : isSupersedableCatalogKind b.kind = true
  link : b.supersedes = some a.entryId

/-- What a predicate keeps under each key is the newest entries. -/
def KeepsNewest (entries : List ContextEntry) (p : ContextEntry → Bool) : Prop :=
  ∀ a ∈ entries, ∀ b ∈ entries, a.key ≠ none → a.key = b.key → a.entryId < b.entryId →
    p a = true → p b = true

/-- Under each key stand the versions of one catalog, or a single entry. -/
structure Chained (entries : List ContextEntry) : Prop where
  chain : ∀ key, (carriers entries key).IsChain Supersedes
  back : ∀ entry ∈ entries, ∀ id, entry.supersedes = some id →
    id < entry.entryId ∧ ∀ other ∈ entries, other.entryId = id → other.key = entry.key
  wellKeyed : ∀ entry ∈ entries, entry.WellKeyed

/-- No key has more versions than the cap allows. -/
def WithinCap (entries : List ContextEntry) : Prop :=
  ∀ key, (carriers entries key).length ≤ supersededCatalogCap + 1

theorem mem_carriers {key : ContextEntryKey} {e : ContextEntry} :
    e ∈ carriers entries key ↔ e ∈ entries ∧ e.key = some key := by
  simp [carriers]

theorem carriers_append (xs ys : List ContextEntry) (key : ContextEntryKey) :
    carriers (xs ++ ys) key = carriers xs key ++ carriers ys key :=
  List.filter_append ..

theorem carriers_filter (p : ContextEntry → Bool) (key : ContextEntryKey) :
    carriers (entries.filter p) key = (carriers entries key).filter p := by
  rw [carriers, carriers, List.filter_filter, List.filter_filter]
  exact List.filter_congr fun e _ => Bool.and_comm ..

/-- Keeping the newest entries under each key keeps the versions in a chain. -/
theorem Chained.filter {p : ContextEntry → Bool} (h : Chained entries)
    (hsorted : (entries.map ContextEntry.entryId).Pairwise (· < ·)) (hp : KeepsNewest entries p) :
    Chained (entries.filter p) := by
  have hsuffix : ∀ key, carriers (entries.filter p) key <:+ carriers entries key := by
    intro key
    rw [carriers_filter]
    refine filter_suffix ?_
    have hcarriers : (carriers entries key).Pairwise (fun a b => a.entryId < b.entryId) :=
      (List.pairwise_map.mp hsorted).sublist List.filter_sublist
    refine hcarriers.imp_of_mem fun {a b} ha hb hlt => ?_
    obtain ⟨ha, hakey⟩ := mem_carriers.mp ha
    obtain ⟨hb, hbkey⟩ := mem_carriers.mp hb
    exact hp a ha b hb (by simp [hakey]) (hakey.trans hbkey.symm) hlt
  have hmem : ∀ e ∈ entries.filter p, e ∈ entries := fun e he => (List.mem_filter.mp he).1
  refine ⟨fun key => (h.chain key).suffix (hsuffix key), fun e he id hid => ?_,
    fun e he => h.wellKeyed e (hmem e he)⟩
  obtain ⟨hlt, hother⟩ := h.back e (hmem e he) id hid
  exact ⟨hlt, fun other hmem' => hother other (hmem other hmem')⟩

theorem WithinCap.of_sublist {fewer : List ContextEntry} (h : WithinCap entries)
    (hsub : fewer.Sublist entries) : WithinCap fewer :=
  fun key => ((hsub.filter _).length_le).trans (h key)

/-- Whole keys may go. -/
theorem keepsNewest_of_key (p : Option ContextEntryKey → Bool) :
    KeepsNewest entries (fun e => p e.key) := by
  intro a _ b _ _ hkey _ hp
  show p b.key = true
  rw [← hkey]
  exact hp

/-- Ids that take, with a version, every older one. -/
def TakesOldest (entries : List ContextEntry) (ids : List ContextEntryId) : Prop :=
  KeepsNewest entries (fun e => e.entryId ∉ ids)

/-- One more entry: a link to an entry of its own key, or none. -/
theorem Chained.back_append {e : ContextEntry} (h : Chained entries) (he : e.WellKeyed)
    (hlt : ∀ other ∈ entries, other.entryId < e.entryId)
    (hback : ∀ id, e.supersedes = some id → id < e.entryId ∧
      ∀ other ∈ entries, other.entryId = id → other.key = e.key)
    (hchain : ∀ key, (carriers (entries ++ [e]) key).IsChain Supersedes) :
    Chained (entries ++ [e]) := by
  refine ⟨hchain, fun a ha id hid => ?_, fun a ha => ?_⟩
  · have hold : id < a.entryId ∧ ∀ other ∈ entries, other.entryId = id → other.key = a.key := by
      rcases List.mem_append.mp ha with ha | ha
      · exact h.back a ha id hid
      · obtain rfl := List.mem_singleton.mp ha
        exact hback id hid
    have hle : a.entryId ≤ e.entryId := by
      rcases List.mem_append.mp ha with ha | ha
      · exact (hlt a ha).le
      · exact (List.mem_singleton.mp ha ▸ le_rfl)
    refine ⟨hold.1, fun other hmem heq => ?_⟩
    rcases List.mem_append.mp hmem with hmem | hmem
    · exact hold.2 other hmem heq
    · -- The new entry has the greatest id, so nothing can supersede it yet.
      rw [List.mem_singleton.mp hmem] at heq
      exact absurd (heq ▸ hold.1) hle.not_gt
  · rcases List.mem_append.mp ha with ha | ha
    · exact h.wellKeyed a ha
    · exact List.mem_singleton.mp ha ▸ he

/-- The carriers of a key after one more entry. -/
theorem carriers_concat (entries : List ContextEntry) (e : ContextEntry) (key : ContextEntryKey) :
    carriers (entries ++ [e]) key =
      if e.key = some key then carriers entries key ++ [e] else carriers entries key := by
  rw [carriers_append]
  split_ifs with hkey <;> simp [carriers, hkey]

/-- An entry that supersedes nothing, under a key that nobody holds. -/
theorem Chained.append {e : ContextEntry} (h : Chained entries) (he : e.WellKeyed)
    (hlt : ∀ other ∈ entries, other.entryId < e.entryId) (hnone : e.supersedes = none)
    (hfree : ∀ key, e.key = some key → carriers entries key = []) : Chained (entries ++ [e]) := by
  refine h.back_append he hlt (by simp [hnone]) fun key => ?_
  rw [carriers_concat]
  split_ifs with hkey
  · rw [hfree key hkey]
    exact List.isChain_singleton e
  · exact h.chain key

theorem WithinCap.append {e : ContextEntry} (h : WithinCap entries)
    (hfree : ∀ key, e.key = some key → carriers entries key = []) :
    WithinCap (entries ++ [e]) := by
  intro key
  rw [carriers_concat]
  split_ifs with hkey
  · rw [hfree key hkey]
    exact Nat.le_add_left ..
  · exact h key

/-- The next version of a catalog. -/
theorem Chained.supersede {e current : ContextEntry} {key : ContextEntryKey} (h : Chained entries)
    (he : e.WellKeyed) (hsorted : (entries.map ContextEntry.entryId).Pairwise (· < ·))
    (hlt : ∀ other ∈ entries, other.entryId < e.entryId) (hkey : e.key = some key)
    (hcurrent : (carriers entries key).getLast? = some current) (hlink : Supersedes current e) :
    Chained (entries ++ [e]) := by
  obtain ⟨hmem, hcurrentKey⟩ := mem_carriers.mp (List.mem_of_getLast? hcurrent)
  refine h.back_append he hlt (fun id hid => ?_) fun k => ?_
  · obtain rfl : current.entryId = id := Option.mem_unique hlink.link hid
    refine ⟨hlt current hmem, fun other hother heq => ?_⟩
    obtain rfl : other = current :=
      List.inj_on_of_nodup_map (hsorted.imp ne_of_lt) hother hmem heq
    rw [hcurrentKey, hkey]
  · rw [carriers_concat]
    split_ifs with hk
    · obtain rfl : key = k := Option.mem_unique hkey hk
      refine (h.chain key).append (List.isChain_singleton e) fun last hlast first hfirst => ?_
      obtain rfl : current = last := Option.mem_unique hcurrent hlast
      obtain rfl : e = first := Option.some.inj hfirst
      exact hlink
    · exact h.chain k

/-- The ids that `drop_superseded_beyond_cap` drops under a key. -/
def droppedIds (entries : List ContextEntry) (key : ContextEntryKey) : List ContextEntryId :=
  let versions := ((carriers entries key).map ContextEntry.entryId).dropLast
  versions.take (versions.length - supersededCatalogCap)

theorem droppedIds_eq (entries : List ContextEntry) (key : ContextEntryKey) :
    droppedIds entries key = ((carriers entries key).map ContextEntry.entryId).take
      ((carriers entries key).length - 1 - supersededCatalogCap) := by
  rw [droppedIds, List.dropLast_eq_take, List.take_take, List.length_take, List.length_map]
  congr 1
  omega

/-- Only the oldest versions are dropped. -/
theorem droppedIds_takesOldest (hsorted : (entries.map ContextEntry.entryId).Pairwise (· < ·))
    (key : ContextEntryKey) : TakesOldest entries (droppedIds entries key) := by
  intro a ha b hb hne hkey hlt hkept
  rw [decide_eq_true_eq] at hkept ⊢
  rw [droppedIds_eq] at hkept ⊢
  intro hdropped
  refine hkept ?_
  obtain ⟨c, hc, hid⟩ := List.mem_map.mp (List.mem_of_mem_take hdropped)
  obtain ⟨hc, hckey⟩ := mem_carriers.mp hc
  obtain rfl : c = b := List.inj_on_of_nodup_map (hsorted.imp ne_of_lt) hc hb hid
  have hcarriers : ((carriers entries key).map ContextEntry.entryId).Pairwise (· < ·) :=
    hsorted.sublist (List.filter_sublist.map _)
  have hmem : a.entryId ∈ (carriers entries key).map ContextEntry.entryId :=
    List.mem_map_of_mem (mem_carriers.mpr ⟨ha, hkey.trans hckey⟩)
  exact mem_take_of_lt hcarriers hmem hlt hdropped

/-- What is left under the key is within the cap. -/
theorem length_carriers_dropped (hsorted : (entries.map ContextEntry.entryId).Pairwise (· < ·))
    (key : ContextEntryKey) :
    (carriers (entries.filter (fun e => e.entryId ∉ droppedIds entries key)) key).length ≤
      supersededCatalogCap + 1 := by
  have hcarriers : ((carriers entries key).map ContextEntry.entryId).Nodup :=
    (hsorted.sublist (List.filter_sublist.map _)).imp ne_of_lt
  have hids : ((carriers entries key).filter (fun e => e.entryId ∉ droppedIds entries key)).map
      ContextEntry.entryId = ((carriers entries key).map ContextEntry.entryId).drop
        ((carriers entries key).length - 1 - supersededCatalogCap) := by
    rw [← filter_notMem_take hcarriers, List.filter_map, droppedIds_eq]
    rfl
  have hlength := congrArg List.length hids
  rw [List.length_map, List.length_drop, List.length_map] at hlength
  rw [carriers_filter, hlength]
  omega

/-! ## Reading a chain -/

/-- Behind the first of a chain stand catalogs only. -/
theorem catalog_of_chain {first : ContextEntry} {rest : List ContextEntry}
    (h : (first :: rest).IsChain Supersedes) :
    ∀ e ∈ rest, isSupersedableCatalogKind e.kind = true := by
  induction rest generalizing first with
  | nil => rintro e ⟨⟩
  | cons next rest ih =>
    obtain ⟨hlink, hrest⟩ := List.isChain_cons_cons.mp h
    intro e he
    rcases List.mem_cons.mp he with rfl | he
    · exact hlink.new
    · exact ih hrest e he

/-- An entry that is not the newest under its key is a catalog, superseded by an entry of that key. -/
theorem Chained.superseded {a b : ContextEntry} (h : Chained entries)
    (hsorted : (entries.map ContextEntry.entryId).Pairwise (· < ·)) (ha : a ∈ entries)
    (hb : b ∈ entries) (hne : a.key ≠ none) (hkey : a.key = b.key) (hlt : a.entryId < b.entryId) :
    isSupersedableCatalogKind a.kind = true ∧ isSupersedableCatalogKind b.kind = true ∧
      ∃ c ∈ entries, c.key = a.key ∧ c.supersedes = some a.entryId := by
  obtain ⟨key, hakey⟩ := Option.ne_none_iff_exists'.mp hne
  have hcarriers : (carriers entries key).Pairwise (fun a b => a.entryId < b.entryId) :=
    (List.pairwise_map.mp hsorted).sublist List.filter_sublist
  obtain ⟨before, after, hsplit⟩ := List.append_of_mem (mem_carriers.mpr ⟨ha, hakey⟩)
  have hbmem : b ∈ carriers entries key := mem_carriers.mpr ⟨hb, hkey ▸ hakey⟩
  have hchain := h.chain key
  rw [hsplit] at hcarriers hbmem hchain
  -- The newer entry stands behind the older one.
  have hafter : b ∈ after := by
    rcases List.mem_append.mp hbmem with hbmem | hbmem
    · have := (List.pairwise_append.mp hcarriers).2.2 b hbmem a List.mem_cons_self
      exact absurd this hlt.not_gt
    · rcases List.mem_cons.mp hbmem with rfl | hbmem
      · exact absurd hlt (lt_irrefl _)
      · exact hbmem
  have htail : (a :: after).IsChain Supersedes := (List.isChain_append.mp hchain).2.1
  refine ⟨?_, catalog_of_chain htail b hafter, ?_⟩
  all_goals
    cases hrest : after with
    | nil =>
      rw [hrest] at hafter
      cases hafter
    | cons c rest =>
      rw [hrest] at htail hsplit
      have hlink := (List.isChain_cons_cons.mp htail).1
      first
      | exact hlink.old
      | obtain ⟨hc, hckey⟩ := mem_carriers.mp
          (hsplit ▸ List.mem_append_right _ (List.mem_cons_of_mem _ List.mem_cons_self))
        exact ⟨c, hc, hckey.trans hakey.symm, hlink.link⟩

/-! ## What compaction takes -/

/-- An entry that belongs to no tool group: whatever is open, it is neither call, result nor output. -/
def ContextEntry.isLoose (e : ContextEntry) : Bool :=
  isSupersedableCatalogKind e.kind && e.outputTurn.isNone

theorem ContextEntry.apart_of_loose {e : ContextEntry} (h : e.isLoose = true)
    (xs : List ContextEntry) : Apart xs e := by
  obtain ⟨hkind, houtput⟩ := Bool.and_eq_true_iff.mp h
  have hcall : e.calls = none ∧ e.answers = none := by
    unfold ContextEntry.calls ContextEntry.answers
    generalize e.kind = kind at hkind
    cases kind <;> first | exact ⟨rfl, rfl⟩ | cases hkind
  refine ⟨hcall.1, ?_, .inl (Option.isNone_iff_eq_none.mp houtput)⟩
  rintro ⟨callId, hanswers, -⟩
  rw [hcall.2] at hanswers
  cases hanswers

/-- Keeping tool groups together keeps loose entries in order. -/
theorem toolGroupsAdjacent_loose (xs : List ContextEntry) :
    (toolGroupsAdjacent xs).filter ContextEntry.isLoose = xs.filter ContextEntry.isLoose := by
  rw [toolGroupsAdjacent_eq]
  induction xs using List.reverseRecOn with
  | nil => rfl
  | append_singleton xs e ih =>
    rw [List.filter_append, ← ih]
    by_cases he : e.isLoose = true
    · rw [taken_concat_of_apart (ContextEntry.apart_of_loose he xs), List.filter_append]
    · obtain ⟨before, after, htaken, hmore⟩ := taken_concat xs e
      rw [hmore, htaken, List.filter_append, List.filter_append, List.filter_cons_of_neg he,
        List.filter_singleton]
      simp [he]

/-- A catalog under a key. -/
def ContextEntry.isVersion (e : ContextEntry) : Bool :=
  isSupersedableCatalogKind e.kind && e.key.isSome

/-- The versions of a context are rendered in order. -/
theorem plannedContextEntries_versions (h : ∀ e ∈ s.context.entries, e.WellKeyed) :
    (plannedContextEntries s).filter ContextEntry.isVersion =
      s.context.entries.filter ContextEntry.isVersion := by
  have hinstructions : (instructionEntries s).filter ContextEntry.isVersion = [] := by
    refine List.filter_eq_nil_iff.mpr fun e he => ?_
    have hmem := (List.perm_insertionSort _ _).mem_iff.mp he
    obtain ⟨-, hkind⟩ := List.mem_filter.mp hmem
    rw [beq_iff_eq] at hkind
    simp [ContextEntry.isVersion, hkind, isSupersedableCatalogKind]
  have hsummaries : (s.context.entries.filter
      (fun e => e.kind != .instructions && isStandalonePrefix e)).filter ContextEntry.isVersion =
        [] := by
    refine List.filter_eq_nil_iff.mpr fun e he hversion => ?_
    obtain ⟨hmem, hprefix⟩ := List.mem_filter.mp he
    obtain ⟨-, hkey⟩ := Bool.and_eq_true_iff.mp hversion
    have hnot := (h e hmem).summary (Option.isSome_iff_ne_none.mp hkey)
    rw [hnot, Bool.and_false] at hprefix
    cases hprefix
  have hloose : ∀ xs : List ContextEntry, (∀ e ∈ xs, e.WellKeyed) →
      xs.filter ContextEntry.isVersion =
        (xs.filter ContextEntry.isLoose).filter ContextEntry.isVersion := by
    intro xs hxs
    rw [List.filter_filter]
    refine List.filter_congr fun e he => ?_
    cases hversion : e.isVersion with
    | false => rfl
    | true =>
      obtain ⟨hkind, hkey⟩ := Bool.and_eq_true_iff.mp hversion
      have houtput := (hxs e he).output (Option.isSome_iff_ne_none.mp hkey)
      simp [ContextEntry.isLoose, hkind, houtput]
  have hbody : ∀ e ∈ bodyEntries s, e ∈ s.context.entries := fun e he => (List.mem_filter.mp he).1
  have hadjacent : ∀ e ∈ toolGroupsAdjacent (bodyEntries s), e ∈ s.context.entries := fun e he =>
    hbody e ((toolGroupsAdjacent_perm _).mem_iff.mp he)
  have hskipped : (bodyEntries s).filter ContextEntry.isVersion =
      s.context.entries.filter ContextEntry.isVersion := by
    rw [bodyEntries, List.filter_filter]
    refine List.filter_congr fun e he => ?_
    cases hversion : e.isVersion with
    | false => rfl
    | true =>
      obtain ⟨hkind, hkey⟩ := Bool.and_eq_true_iff.mp hversion
      have hnot := (h e he).summary (Option.isSome_iff_ne_none.mp hkey)
      have hne : e.kind ≠ .instructions := by
        intro heq
        rw [heq] at hkind
        cases hkind
      simp [hnot, hne]
  calc (plannedContextEntries s).filter ContextEntry.isVersion
      = (toolGroupsAdjacent (bodyEntries s)).filter ContextEntry.isVersion := by
        rw [plannedContextEntries, List.filter_append, List.filter_append, hinstructions, hsummaries]
        rfl
    _ = ((toolGroupsAdjacent (bodyEntries s)).filter ContextEntry.isLoose).filter
          ContextEntry.isVersion := hloose _ fun e he => h e (hadjacent e he)
    _ = ((bodyEntries s).filter ContextEntry.isLoose).filter ContextEntry.isVersion := by
        rw [toolGroupsAdjacent_loose]
    _ = (bodyEntries s).filter ContextEntry.isVersion :=
        (hloose _ fun e he => h e (hbody e he)).symm
    _ = s.context.entries.filter ContextEntry.isVersion := hskipped

/-- What is not the newest under its key may be compacted. -/
theorem Chained.compactable {a b : ContextEntry} (h : Chained s.context.entries)
    (hsorted : (s.context.entries.map ContextEntry.entryId).Pairwise (· < ·))
    (ha : a ∈ s.context.entries) (hb : b ∈ s.context.entries) (hne : a.key ≠ none)
    (hkey : a.key = b.key) (hlt : a.entryId < b.entryId) : isCompactableEntry s a = true := by
  obtain ⟨hkind, -, c, hc, -, hlink⟩ := h.superseded hsorted ha hb hne hkey hlt
  unfold isCompactableEntry
  split
  next heq => rw [heq] at hkind; cases hkind
  · exact List.any_eq_true.mpr ⟨c, hc, by simp [hlink]⟩
  · rfl

/-- A standalone compaction covers the oldest versions under each key. -/
theorem standalonePrefixIds_takesOldest (h : Chained s.context.entries)
    (hsorted : (s.context.entries.map ContextEntry.entryId).Pairwise (· < ·)) :
    TakesOldest s.context.entries (standalonePrefixIds s) := by
  intro a ha b hb hne hkey hlt hkept
  rw [decide_eq_true_eq] at hkept ⊢
  refine fun hcovered => hkept ?_
  obtain ⟨hakind, hbkind, -⟩ := h.superseded hsorted ha hb hne hkey hlt
  have hprefix : standalonePrefixEntries s <+: compactableContextEntries s :=
    (List.takeWhile_prefix _).trans (List.take_prefix _ _)
  obtain ⟨rest, hrest⟩ := hprefix
  obtain ⟨b', hb', hid⟩ := List.mem_map.mp hcovered
  have hcompactable : ∀ e ∈ compactableContextEntries s, e ∈ s.context.entries := fun e he =>
    mem_plannedContextEntries.mp (List.mem_filter.mp he).1
  obtain rfl : b' = b := by
    refine List.inj_on_of_nodup_map (hsorted.imp ne_of_lt) (hcompactable b' ?_) hb hid
    exact hrest ▸ List.mem_append_left _ hb'
  -- The versions among the compactable entries stand in order, and those covered come first.
  have hversions : (compactableContextEntries s).filter ContextEntry.isVersion =
      (s.context.entries.filter ContextEntry.isVersion).filter (isCompactableEntry s) := by
    rw [compactableContextEntries, List.filter_filter, ← plannedContextEntries_versions h.wellKeyed,
      List.filter_filter]
    exact List.filter_congr fun e _ => Bool.and_comm ..
  have hordered : ((compactableContextEntries s).filter ContextEntry.isVersion).Pairwise
      (fun a b => a.entryId < b.entryId) := by
    rw [hversions]
    exact (List.pairwise_map.mp hsorted).sublist
      (List.filter_sublist.trans List.filter_sublist)
  have hamem : a ∈ (compactableContextEntries s).filter ContextEntry.isVersion := by
    rw [hversions]
    refine List.mem_filter.mpr ⟨List.mem_filter.mpr ⟨ha, ?_⟩, h.compactable hsorted ha hb hne hkey hlt⟩
    exact Bool.and_eq_true_iff.mpr ⟨hakind, Option.isSome_iff_ne_none.mpr hne⟩
  have hbversion : b'.isVersion = true :=
    Bool.and_eq_true_iff.mpr ⟨hbkind, Option.isSome_iff_ne_none.mpr (hkey ▸ hne)⟩
  rw [← hrest, List.filter_append] at hamem hordered
  rcases List.mem_append.mp hamem with hamem | hamem
  · exact List.mem_map_of_mem (List.mem_filter.mp hamem).1
  · have hbefore := (List.pairwise_append.mp hordered).2.2 b'
      (List.mem_filter.mpr ⟨hb', hbversion⟩) a hamem
    exact absurd hbefore hlt.not_gt

/-! ## Recorded entries -/

/-- The entries in which a run's input and steering stand. -/
def ActiveRun.recordedIds (run : ActiveRun) : List ContextEntryId :=
  run.inputEntryIds ++ run.steering.flatMap SteeringBatch.entryIds

/-- What a run was given as input and as steering. -/
def ActiveRun.supplies (run : ActiveRun) : List ContextEntryInput :=
  run.source.input ++ run.steering.flatMap SteeringBatch.input

/-- What is recorded on a run was counted out, is never a catalog, and stands under the run's own keys
if under any. -/
structure Recorded (s : CoreAgentState) (run : ActiveRun) : Prop where
  bound : ∀ id ∈ run.recordedIds, id ≤ s.idCursors.lastContextEntryId
  plain : ∀ id ∈ run.recordedIds, ∀ e ∈ s.context.entries, e.entryId = id →
    isSupersedableCatalogKind e.kind = false
  reserved : ∀ id ∈ run.recordedIds, ∀ e ∈ s.context.entries, e.entryId = id →
    ∀ key, e.key = some key → contextKeyStartsWith key reservedRunContextKeyPrefix = true
  supplied : ∀ content ∈ run.supplies, content.kind.isSupplied = true

theorem plain_of_supplied {kind : ContextEntryKind} (h : kind.isSupplied = true) :
    isSupersedableCatalogKind kind = false := by
  cases kind <;> first | rfl | cases h

/-- Fewer entries, and the same ones recorded. -/
theorem Recorded.mono {run run' : ActiveRun} (h : Recorded s run)
    (hids : ∀ id ∈ run'.recordedIds, id ∈ run.recordedIds)
    (hsupplies : ∀ content ∈ run'.supplies, content ∈ run.supplies)
    (hentries : ∀ e ∈ t.context.entries, ∃ old ∈ s.context.entries, old.entryId = e.entryId ∧
      old.kind = e.kind ∧ old.key = e.key)
    (hcursor : s.idCursors.lastContextEntryId ≤ t.idCursors.lastContextEntryId) :
    Recorded t run' where
  bound := fun id hid => (h.bound id (hids id hid)).trans hcursor
  plain := fun id hid e he heq => by
    obtain ⟨old, hold, hid', hkind, -⟩ := hentries e he
    rw [← hkind]
    exact h.plain id (hids id hid) old hold (hid'.trans heq)
  reserved := fun id hid e he heq key hkey => by
    obtain ⟨old, hold, hid', -, holdKey⟩ := hentries e he
    exact h.reserved id (hids id hid) old hold (hid'.trans heq) key (holdKey.trans hkey)
  supplied := fun content hmem => h.supplied content (hsupplies content hmem)

theorem ActiveRun.Moved.recorded {a b : ActiveRun} (h : a.Moved b) :
    (∀ id ∈ b.recordedIds, id ∈ a.recordedIds) ∧ ∀ content ∈ b.supplies, content ∈ a.supplies := by
  have hbatch : ∀ batch ∈ b.steering, ∃ old ∈ a.steering,
      old.entryIds = batch.entryIds ∧ old.input = batch.input := by
    intro batch hmem
    have hsub := h.steering.subset (List.mem_map_of_mem hmem)
    obtain ⟨old, hold, heq⟩ := List.mem_map.mp hsub
    have hids : old.unconsumed.entryIds = batch.unconsumed.entryIds := congrArg _ heq
    have hinput : old.unconsumed.input = batch.unconsumed.input := congrArg _ heq
    exact ⟨old, hold, hids, hinput⟩
  constructor
  · intro id hid
    rcases List.mem_append.mp hid with hid | hid
    · exact List.mem_append_left _ (h.inputEntryIds ▸ hid)
    · obtain ⟨batch, hmem, hid⟩ := List.mem_flatMap.mp hid
      obtain ⟨old, hold, hids, -⟩ := hbatch batch hmem
      exact List.mem_append_right _ (List.mem_flatMap.mpr ⟨old, hold, hids ▸ hid⟩)
  · intro content hcontent
    rcases List.mem_append.mp hcontent with hcontent | hcontent
    · exact List.mem_append_left _ (h.same.source ▸ hcontent)
    · obtain ⟨batch, hmem, hcontent⟩ := List.mem_flatMap.mp hcontent
      obtain ⟨old, hold, -, hinput⟩ := hbatch batch hmem
      exact List.mem_append_right _ (List.mem_flatMap.mpr ⟨old, hold, hinput ▸ hcontent⟩)

/-- One entry is recorded at most, it is what was supplied, and no edit of the context. -/
def RecordsOne (e : ContextEntry) (run run' : ActiveRun) : Prop :=
  (∀ content ∈ run'.supplies, content ∈ run.supplies) ∧
    ∀ id ∈ run'.recordedIds, id ∈ run.recordedIds ∨
      (id = e.entryId ∧ e.source ≠ .contextEdit ∧ ∃ content ∈ run.supplies, e.kind = content.kind)

theorem recordRunInput_records {run run' : ActiveRun} {e : ContextEntry} {index : Nat}
    (hsource : e.source ≠ .contextEdit) (h : recordRunInput run e index = .ok run') :
    RecordsOne e run run' := by
  simp only [recordRunInput, validateEntryMatchesInput, bind_eq_ok, require_eq_ok, orError_eq_ok,
    exists_unit, Except.ok.injEq] at h
  obtain ⟨content, hcontent, ⟨-, hkind, -⟩, -, rfl⟩ := h
  refine ⟨fun _ h => h, fun id hid => ?_⟩
  simp only [ActiveRun.recordedIds, List.mem_append, List.mem_singleton] at hid ⊢
  rcases hid with (hid | rfl) | hid
  · exact .inl (.inl hid)
  · exact .inr ⟨rfl, hsource, content, List.mem_append_left _ (List.mem_of_getElem? hcontent), hkind⟩
  · exact .inl (.inr hid)

theorem updateSteering_records {steeringId : SteeringId} {e : ContextEntry} {index : Nat}
    {missing : DomainError} {steering steering' : List SteeringBatch}
    (h : updateSteering steeringId (recordSteeringInput · e index) missing steering =
      .ok steering') :
    steering'.flatMap SteeringBatch.input = steering.flatMap SteeringBatch.input ∧
      ∀ id ∈ steering'.flatMap SteeringBatch.entryIds,
        id ∈ steering.flatMap SteeringBatch.entryIds ∨
          (id = e.entryId ∧ ∃ content ∈ steering.flatMap SteeringBatch.input,
            e.kind = content.kind) := by
  induction steering generalizing steering' with
  | nil => cases h
  | cons batch rest ih =>
    rw [updateSteering] at h
    by_cases hid : batch.steeringId = steeringId
    · rw [if_pos hid] at h
      simp only [recordSteeringInput, validateEntryMatchesInput, bind_eq_ok, require_eq_ok,
        orError_eq_ok, exists_unit, Except.ok.injEq] at h
      obtain ⟨_, ⟨content, hcontent, ⟨-, hkind, -⟩, -, rfl⟩, rfl⟩ := h
      refine ⟨rfl, fun id hid => ?_⟩
      simp only [List.flatMap_cons, List.mem_append, List.mem_singleton] at hid ⊢
      rcases hid with (hid | rfl) | hid
      · exact .inl (.inl hid)
      · exact .inr ⟨rfl, content, .inl (List.mem_of_getElem? hcontent), hkind⟩
      · exact .inl (.inr hid)
    · rw [if_neg hid] at h
      simp only [bind_eq_ok, Except.ok.injEq] at h
      obtain ⟨rest', hrest, rfl⟩ := h
      obtain ⟨hinput, hids⟩ := ih hrest
      refine ⟨by rw [List.flatMap_cons, List.flatMap_cons, hinput], fun id hid => ?_⟩
      simp only [List.flatMap_cons, List.mem_append] at hid ⊢
      rcases hid with hid | hid
      · exact .inl (.inl hid)
      · rcases hids id hid with hid | ⟨heq, content, hcontent, hkind⟩
        · exact .inl (.inr hid)
        · exact .inr ⟨heq, content, .inr hcontent, hkind⟩

/-- An entry is recorded as what its run was supplied. -/
theorem recordEntryMaterialization_records {e : ContextEntry}
    (h : recordEntryMaterialization s e = .ok t) :
    ∀ run', t.runs.active = some run' → ∃ run, s.runs.active = some run ∧ RecordsOne e run run' := by
  unfold recordEntryMaterialization at h
  split at h
  next hsource =>
    simp only [bind_eq_ok, activeRunRef_eq_ok, Except.ok.injEq] at h
    obtain ⟨run, ⟨hactive, -⟩, run', hrun, rfl⟩ := h
    rintro _ ⟨⟩
    exact ⟨run, hactive, recordRunInput_records (by simp [hsource]) hrun⟩
  next hsource =>
    simp only [bind_eq_ok, activeRunRef_eq_ok, Except.ok.injEq] at h
    obtain ⟨run, ⟨hactive, -⟩, steering, hsteering, rfl⟩ := h
    obtain ⟨hinput, hids⟩ := updateSteering_records hsteering
    rintro _ ⟨⟩
    refine ⟨run, hactive, fun content hcontent => ?_, fun id hid => ?_⟩
    · rwa [ActiveRun.supplies, hinput] at hcontent
    · rcases List.mem_append.mp hid with hid | hid
      · exact .inl (List.mem_append_left _ hid)
      · rcases hids id hid with hid | ⟨heq, content, hcontent, hkind⟩
        · exact .inl (List.mem_append_right _ hid)
        · exact .inr ⟨heq, by simp [hsource], content, List.mem_append_right _ hcontent, hkind⟩
  · cases h
    exact fun run hactive => ⟨run, hactive, fun _ h => h, fun _ h => .inl h⟩

/-- What a provider's compaction prunes are the oldest versions under each key. -/
theorem providerCompacted_takesOldest (h : Chained s.context.entries)
    (hsorted : (s.context.entries.map ContextEntry.entryId).Pairwise (· < ·))
    (hrecorded : s.ForActive (Recorded s)) :
    TakesOldest s.context.entries ((providerCompactedEntries s).map ContextEntry.entryId) := by
  intro a ha b hb hne hkey hlt hkept
  rw [decide_eq_true_eq] at hkept ⊢
  refine fun hpruned => hkept ?_
  obtain ⟨b', hb', hid⟩ := List.mem_map.mp hpruned
  refine List.mem_map_of_mem ?_
  unfold providerCompactedEntries at hb' ⊢
  split_ifs at hb' ⊢
  · cases hb'
  · split at hb'
    · cases hb'
    next latest hlatest =>
      obtain ⟨hbmem, hprunable⟩ := List.mem_filter.mp hb'
      obtain ⟨hbefore, -⟩ := Bool.and_eq_true_iff.mp hprunable
      rw [decide_eq_true_eq] at hbefore
      refine List.mem_filter.mpr ⟨ha, ?_⟩
      obtain ⟨hakind, -⟩ := h.superseded hsorted ha hb hne hkey hlt
      have hremovable : isRemovable s a.entryId = true := by
        refine isRemovable_iff.mpr (removable_eq_ok.mpr fun run hactive => ?_)
        -- A catalog is never recorded as a run's input or steering.
        have hnot : a.entryId ∉ run.recordedIds := by
          intro hmem
          have := (hrecorded run hactive).plain a.entryId hmem a ha rfl
          rw [hakind] at this
          cases this
        refine ⟨fun _ hmem => hnot (List.mem_append_left _ hmem), fun batch hbatch _ hmem => ?_⟩
        exact hnot (List.mem_append_right _ (List.mem_flatMap.mpr ⟨batch, hbatch, hmem⟩))
      have hold : a.entryId < latest.entryId := hlt.trans (hid ▸ hbefore)
      simp only [isProviderCompactionPrunableEntry, hremovable,
        h.compactable hsorted ha hb hne hkey hlt, hold, decide_true, Bool.and_self]

/-! ## The store -/

/-- The invariant of the context store. -/
structure StoreInv (s : CoreAgentState) : Prop where
  chained : Chained s.context.entries
  capped : WithinCap s.context.entries
  recorded : s.ForActive (Recorded s)
  plan : ∀ plan, s.context.compaction.pendingPlan = some plan →
    TakesOldest s.context.entries plan.coveredEntryIds

theorem storeInv_init : StoreInv CoreAgentState.new where
  chained := ⟨fun _ => List.isChain_nil, by rintro e ⟨⟩, by rintro e ⟨⟩⟩
  capped := fun _ => Nat.zero_le _
  recorded := by rintro run ⟨⟩
  plan := by rintro plan ⟨⟩

theorem pendingPlan_eq_none (h : s.context.compaction.isPending = false) :
    s.context.compaction.pendingPlan = none := by
  unfold ContextCompactionState.isPending at h
  unfold ContextCompactionState.pendingPlan
  split <;> simp_all

/-- A store whose context did not change, with runs that record no more. -/
theorem StoreInv.of_same (h : StoreInv s) (hentries : t.context.entries = s.context.entries)
    (hcompaction : t.context.compaction = s.context.compaction)
    (hcursor : t.idCursors.lastContextEntryId = s.idCursors.lastContextEntryId)
    (hruns : ∀ run', t.runs.active = some run' → ∃ run, s.runs.active = some run ∧
      (∀ id ∈ run'.recordedIds, id ∈ run.recordedIds) ∧
      ∀ content ∈ run'.supplies, content ∈ run.supplies) : StoreInv t where
  chained := hentries ▸ h.chained
  capped := hentries ▸ h.capped
  recorded := fun run' hactive' => by
    obtain ⟨run, hactive, hids, hsupplies⟩ := hruns run' hactive'
    refine (h.recorded run hactive).mono hids hsupplies (fun e he => ⟨e, ?_, rfl, rfl, rfl⟩) ?_
    · exact hentries ▸ he
    · exact hcursor.ge
  plan := fun plan hplan => by
    rw [hcompaction] at hplan
    rw [hentries]
    exact h.plan plan hplan

/-- Entries may go, the oldest under each key first. -/
theorem StoreInv.filter {p : ContextEntry → Bool} (h : StoreInv s) (hinv : EntriesInv s)
    (hp : KeepsNewest s.context.entries p) :
    StoreInv (s.setEntries (s.context.entries.filter p)) where
  chained := h.chained.filter hinv.sorted hp
  capped := h.capped.of_sublist List.filter_sublist
  recorded := fun run hactive =>
    (h.recorded run hactive).mono (fun _ h => h) (fun _ h => h)
      (fun e he => ⟨e, (List.mem_filter.mp he).1, rfl, rfl, rfl⟩) le_rfl
  plan := fun plan hplan a ha b hb =>
    h.plan plan hplan a (List.mem_filter.mp ha).1 b (List.mem_filter.mp hb).1

theorem StoreInv.bump (h : StoreInv s) : StoreInv (bumpContextRevision s) :=
  h.of_same rfl rfl rfl fun run hactive => ⟨run, hactive, fun _ h => h, fun _ h => h⟩

/-- How one entry enters the store: beside the others, in the place of what stood under its key, or as
the next version of a catalog. -/
theorem applyEntry_entries {e : ContextEntry} (happly : applyEntry s e = .ok t) :
    (e.key = none ∧ t.context.entries = s.context.entries ++ [e]) ∨
      (∃ key, e.key = some key ∧ e.supersedes = none ∧ t.context.entries =
        s.context.entries.filter (fun old => old.key != some key) ++ [e]) ∨
      ∃ key current, e.key = some key ∧
        (carriers s.context.entries key).getLast? = some current ∧ Supersedes current e ∧
        t.context.entries = (s.context.entries ++ [e]).filter
          (fun old => old.entryId ∉ droppedIds (s.context.entries ++ [e]) key) := by
  obtain ⟨-, recorded, replaced, hrecorded, hreplaced, rfl⟩ := applyEntry_eq_ok.mp happly
  obtain ⟨-, hcontext, -⟩ := recordEntryMaterialization_frame hrecorded
  unfold replaceKeyed at hreplaced
  cases hkey : e.key with
  | none =>
    simp only [hkey, Except.ok.injEq] at hreplaced
    subst hreplaced
    refine .inl ⟨rfl, ?_⟩
    simp only [capVersions, hkey]
    rw [appendEntry, hcontext]
  | some key =>
    simp only [hkey, bind_eq_ok, require_eq_ok, exists_unit, Except.ok.injEq] at hreplaced
    obtain ⟨hsupersedes, rfl⟩ := hreplaced
    cases htarget : supersedeTarget recorded key e.kind with
    | none =>
      rw [htarget] at hsupersedes
      refine .inr (.inl ⟨key, rfl, hsupersedes, ?_⟩)
      simp only [capVersions, hkey, hsupersedes, Option.isSome_none, Option.isNone_none, if_true,
        if_false, Bool.false_eq_true, appendEntry, removeContextEntryByKey]
      rw [hcontext]
      rfl
    | some id =>
      rw [htarget] at hsupersedes
      unfold supersedeTarget currentKeyEntry at htarget
      split_ifs at htarget with hkind
      simp only [Option.map_eq_some_iff, Option.filter_eq_some_iff] at htarget
      obtain ⟨current, ⟨hcurrent, hcurrentKind⟩, rfl⟩ := htarget
      refine .inr (.inr ⟨key, current, rfl, ?_, ⟨hcurrentKind, hkind, hsupersedes⟩, ?_⟩)
      · rw [carriers, List.getLast?_filter, ← hcontext]
        exact hcurrent
      · simp only [capVersions, hkey, hsupersedes, Option.isSome_some, Option.isNone_some, if_true,
          if_false, Bool.false_eq_true, appendEntry, dropSupersededBeyondCap]
        rw [hcontext]
        rfl

theorem applyEntry_store {e : ContextEntry} (hinv : EntriesInv s) (h : StoreInv s)
    (he : e.WellKeyed) (hpending : s.context.compaction.isPending = false ∨ e.key = none)
    (happly : applyEntry s e = .ok t) : StoreInv t := by
  obtain ⟨hframe, hwritten, hinv', hid, hcursor⟩ := applyEntry_spec hinv happly
  have hlt : ∀ other ∈ s.context.entries, other.entryId < e.entryId := fun other hother =>
    hid ▸ Nat.lt_succ_of_le (hinv.bound other hother)
  have hcases := applyEntry_entries happly
  have hkept : ∀ other ∈ t.context.entries, other ∈ s.context.entries ∨ other = e := by
    intro other hother
    simpa using hwritten.sublist.subset hother
  refine ⟨?_, ?_, fun run' hactive' => ?_, fun plan hplan => ?_⟩
  · rcases hcases with ⟨hkey, heq⟩ | ⟨key, hkey, hnone, heq⟩ | ⟨key, current, hkey, hcurrent, hlink, heq⟩
    · rw [heq]
      exact h.chained.append he hlt (he.supersedes hkey) (by simp [hkey])
    · rw [heq]
      have hothers : Chained (s.context.entries.filter (fun old => old.key != some key)) :=
        h.chained.filter hinv.sorted (keepsNewest_of_key fun k => k != some key)
      refine hothers.append he (fun other hother => hlt other (List.mem_filter.mp hother).1) hnone
        fun k hk => ?_
      obtain rfl : key = k := Option.mem_unique hkey hk
      refine List.filter_eq_nil_iff.mpr fun other hother => ?_
      simpa using (List.mem_filter.mp hother).2
    · rw [heq]
      have hnext := h.chained.supersede he hinv.sorted hlt hkey hcurrent hlink
      have hsorted : ((s.context.entries ++ [e]).map ContextEntry.entryId).Pairwise (· < ·) :=
        (hinv.appendEntry hid).sorted
      exact hnext.filter hsorted (droppedIds_takesOldest hsorted key)
  · rcases hcases with ⟨hkey, heq⟩ | ⟨key, hkey, hnone, heq⟩ | ⟨key, current, hkey, hcurrent, hlink, heq⟩
    · rw [heq]
      exact h.capped.append (by simp [hkey])
    · rw [heq]
      refine (h.capped.of_sublist List.filter_sublist).append fun k hk => ?_
      obtain rfl : key = k := Option.mem_unique hkey hk
      refine List.filter_eq_nil_iff.mpr fun other hother => ?_
      simpa using (List.mem_filter.mp hother).2
    · rw [heq]
      intro k
      by_cases hk : k = key
      · rw [hk]
        exact length_carriers_dropped (hinv.appendEntry hid).sorted key
      · refine le_trans ?_ (h.capped k)
        rw [carriers_filter]
        refine (List.length_filter_le ..).trans ?_
        rw [carriers_concat, if_neg (by simpa [hkey] using Ne.symm hk)]
  · obtain ⟨-, recorded, replaced, hrecorded, hreplaced, rfl⟩ := applyEntry_eq_ok.mp happly
    have hruns : (capVersions (appendEntry replaced e) e).runs = recorded.runs := by
      obtain ⟨_, rfl, -⟩ := replaceKeyed_spec hreplaced
      unfold capVersions
      split
      · rfl
      · split_ifs <;> rfl
    rw [hruns] at hactive'
    obtain ⟨run, hactive, hsupplies, hids⟩ :=
      recordEntryMaterialization_records hrecorded run' hactive'
    have hold := h.recorded run hactive
    refine ⟨fun id hmem => ?_, fun id hmem other hother heq => ?_, fun id hmem other hother heq => ?_,
      fun content hmem => ?_⟩
    · rw [hcursor]
      rcases hids id hmem with hmem | ⟨rfl, -⟩
      · exact hid ▸ Nat.le_succ_of_le (hold.bound id hmem)
      · exact le_rfl
    · rcases hids id hmem with hmem | ⟨rfl, -, content, hcontent, hkind⟩
      · rcases hkept other hother with hother | rfl
        · exact hold.plain id hmem other hother heq
        · exact absurd (hold.bound id hmem) (heq ▸ hid ▸ Nat.not_succ_le_self _)
      · rcases hkept other hother with hother | rfl
        · exact absurd heq (hlt other hother).ne
        · exact plain_of_supplied (hkind ▸ hold.supplied content hcontent)
    · rcases hids id hmem with hmem | ⟨rfl, hsource, -⟩
      · rcases hkept other hother with hother | rfl
        · exact hold.reserved id hmem other hother heq
        · exact absurd (hold.bound id hmem) (heq ▸ hid ▸ Nat.not_succ_le_self _)
      · rcases hkept other hother with hother | rfl
        · exact absurd heq (hlt other hother).ne
        · exact fun key hkey => he.reserved key hkey hsource
    · exact hold.supplied content (hsupplies content hmem)
  · rw [hframe.context] at hplan
    have hplan' : s.context.compaction.pendingPlan = some plan := hplan
    have hkey : e.key = none := by
      rcases hpending with hpending | hkey
      · rw [pendingPlan_eq_none hpending] at hplan'
        cases hplan'
      · exact hkey
    intro a ha b hb hne hkeys
    have hne' : b.key ≠ none := hkeys ▸ hne
    rcases hkept a ha with ha | rfl
    · rcases hkept b hb with hb | rfl
      · exact h.plan plan hplan' a ha b hb hne hkeys
      · exact absurd hkey hne'
    · exact absurd hkey hne

theorem applyEntries_store {es : List ContextEntry} (hinv : EntriesInv s) (h : StoreInv s)
    (hkeyed : ∀ e ∈ es, e.WellKeyed)
    (hpending : s.context.compaction.isPending = false ∨ ∀ e ∈ es, e.key = none)
    (happly : es.foldlM applyEntry s = .ok t) : StoreInv t := by
  let P := fun u : CoreAgentState =>
    EntriesInv u ∧ StoreInv u ∧ u.context.compaction = s.context.compaction
  have hfold : P t := by
    refine foldlM_preserves (P := P) (fun e hmem a b hab ha => ?_) happly ⟨hinv, h, rfl⟩
    obtain ⟨ha, hstore, hcompaction⟩ := ha
    obtain ⟨hframe, -, hb, -⟩ := applyEntry_spec ha hab
    refine ⟨hb, applyEntry_store ha hstore (hkeyed e hmem) ?_ hab, ?_⟩
    · rw [hcompaction]
      exact hpending.imp_right fun hkeys => hkeys e hmem
    · rw [hframe.context]
      exact hcompaction
  exact hfold.2.1

/-- Replacing entries in place keeps what the store reads of them. -/
theorem replaceEntries_map {replacements : List ContextEntry}
    (hkeeps : ∀ e ∈ replacements, ∀ old ∈ entries, old.entryId = e.entryId →
      e.kind = old.kind ∧ e.key = old.key ∧ e.source = old.source ∧ e.supersedes = old.supersedes) :
    ∃ f : ContextEntry → ContextEntry, replacements.foldl replaceEntry entries = entries.map f ∧
      ∀ old ∈ entries, (f old).entryId = old.entryId ∧ (f old).kind = old.kind ∧
        (f old).key = old.key ∧ (f old).source = old.source ∧
        (f old).supersedes = old.supersedes := by
  induction replacements using List.reverseRecOn with
  | nil => exact ⟨id, (List.map_id _).symm, fun old _ => ⟨rfl, rfl, rfl, rfl, rfl⟩⟩
  | append_singleton rest e ih =>
    obtain ⟨f, hmap, hf⟩ := ih fun e' he' => hkeeps e' (List.mem_append_left _ he')
    refine ⟨fun old => if (f old).entryId = e.entryId then e else f old, ?_, fun old hold => ?_⟩
    · rw [List.foldl_append, hmap, List.foldl_cons, List.foldl_nil, replaceEntry, List.map_map]
      rfl
    · dsimp only
      split_ifs with hid
      · have hid' := (hf old hold).1.symm.trans hid
        exact ⟨hid'.symm, hkeeps e (List.mem_append_right _ List.mem_cons_self) old hold hid'⟩
      · exact hf old hold

theorem carriers_map {f : ContextEntry → ContextEntry} (key : ContextEntryKey)
    (hf : ∀ old ∈ entries, (f old).key = old.key) :
    carriers (entries.map f) key = (carriers entries key).map f := by
  rw [carriers, carriers, List.filter_map]
  exact congrArg _ (List.filter_congr fun old hold => by simp [hf old hold])

/-- A store with entries replaced in place. -/
theorem StoreInv.map {f : ContextEntry → ContextEntry} (h : StoreInv s)
    (hpending : s.context.compaction.isPending = false)
    (hf : ∀ old ∈ s.context.entries, (f old).entryId = old.entryId ∧ (f old).kind = old.kind ∧
      (f old).key = old.key ∧ (f old).source = old.source ∧ (f old).supersedes = old.supersedes) :
    StoreInv (s.setEntries (s.context.entries.map f)) := by
  have hcarriers := fun key => carriers_map key fun old hold => (hf old hold).2.2.1
  refine ⟨⟨fun key => ?_, ?_, ?_⟩, fun key => ?_, fun run hactive => ?_, fun plan hplan => ?_⟩
  · show (carriers (s.context.entries.map f) key).IsChain Supersedes
    rw [hcarriers, List.isChain_map]
    refine (h.chained.chain key).imp_of_mem_imp fun a b ha hb hlink => ?_
    obtain ⟨hid, hkind, -⟩ := hf a (mem_carriers.mp ha).1
    obtain ⟨-, hkind', -, -, hsupersedes⟩ := hf b (mem_carriers.mp hb).1
    exact ⟨hkind ▸ hlink.old, hkind' ▸ hlink.new, by rw [hsupersedes, hid, hlink.link]⟩
  · rintro _ hmem id hid
    obtain ⟨old, hold, rfl⟩ := List.mem_map.mp hmem
    obtain ⟨hidold, -, hkey, -, hsupersedes⟩ := hf old hold
    rw [hsupersedes] at hid
    obtain ⟨hlt, hother⟩ := h.chained.back old hold id hid
    refine ⟨hidold ▸ hlt, ?_⟩
    rintro _ hmem' heq
    obtain ⟨other, hother', rfl⟩ := List.mem_map.mp hmem'
    obtain ⟨hidother, -, hkey', -⟩ := hf other hother'
    rw [hkey, hkey']
    exact hother other hother' (hidother.symm.trans heq)
  · rintro _ hmem
    obtain ⟨old, hold, rfl⟩ := List.mem_map.mp hmem
    obtain ⟨-, -, hkey, hsource, hsupersedes⟩ := hf old hold
    have hold' := h.chained.wellKeyed old hold
    refine ⟨fun hnone => ?_, fun hne => ?_, fun hne => ?_, fun k hk hedit => ?_⟩
    · rw [hsupersedes]
      exact hold'.supersedes (hkey ▸ hnone)
    · unfold ContextEntry.outputTurn
      rw [hsource]
      exact hold'.output (hkey ▸ hne)
    · unfold isStandalonePrefix
      rw [hsource]
      exact hold'.summary (hkey ▸ hne)
    · exact hold'.reserved k (hkey ▸ hk) (hsource ▸ hedit)
  · show (carriers (s.context.entries.map f) key).length ≤ _
    rw [hcarriers, List.length_map]
    exact h.capped key
  · refine (h.recorded run hactive).mono (fun _ h => h) (fun _ h => h) (fun e he => ?_) le_rfl
    obtain ⟨old, hold, rfl⟩ := List.mem_map.mp he
    obtain ⟨hid, hkind, hkey, -⟩ := hf old hold
    exact ⟨old, hold, hid.symm, hkind.symm, hkey.symm⟩
  · have hplan' : s.context.compaction.pendingPlan = some plan := hplan
    rw [pendingPlan_eq_none hpending] at hplan'
    cases hplan'

/-! ## Every step -/

theorem removeKeys_store (keys : List ContextEntryKey) (hinv : EntriesInv s) (h : StoreInv s) :
    StoreInv (keys.foldl removeContextEntryByKey s) := by
  induction keys generalizing s with
  | nil => exact h
  | cons key rest ih =>
    exact ih (hinv.of_sublist List.filter_sublist)
      (h.filter hinv (keepsNewest_of_key fun k => k != some key))

theorem recordCompactionAttempt_recorded (s : CoreAgentState) (trigger : ContextCompactionTrigger)
    (run : ActiveRun) :
    (recordCompactionAttempt s trigger run).recordedIds = run.recordedIds ∧
      (recordCompactionAttempt s trigger run).supplies = run.supplies := by
  unfold recordCompactionAttempt
  dsimp only
  cases run.latestTurn with
  | none => split_ifs <;> exact ⟨rfl, rfl⟩
  | some turn =>
    by_cases hlimit : turn.hitContextLimit
    · simp only [hlimit, if_true]
      split_ifs <;> exact ⟨rfl, rfl⟩
    · simp only [hlimit]
      split_ifs <;> exact ⟨rfl, rfl⟩

theorem prefixEntries_wellKeyed {keyPrefix : ContextEntryKey} {es : List ContextEntry}
    (h : validateKeyPrefixReplacementEntries s keyPrefix es = .ok ()) : ∀ e ∈ es, e.WellKeyed := by
  simp only [validateKeyPrefixReplacementEntries, bind_eq_ok, require_eq_ok, forM_eq_ok,
    orError_eq_ok, exists_unit] at h
  intro e he
  obtain ⟨key, hkey, -, hsource⟩ := h.2.2 e he
  refine ⟨fun hnone => by simp [hkey] at hnone, fun _ => ?_, fun _ => ?_,
    fun _ _ hedit => absurd hsource hedit⟩
  · simp [ContextEntry.outputTurn, hsource]
  · simp [isStandalonePrefix, hsource]

theorem entryById_of_mem (hinv : EntriesInv s) {e : ContextEntry} (he : e ∈ s.context.entries) :
    entryById s e.entryId = some e := by
  have hsome : (entryById s e.entryId).isSome = true :=
    List.find?_isSome.mpr ⟨e, he, by simp⟩
  obtain ⟨other, hother⟩ := Option.isSome_iff_exists.mp hsome
  have hid := List.find?_some hother
  rw [beq_iff_eq] at hid
  rw [hother, hinv.eq_of_id (List.mem_of_find?_eq_some hother) he hid]

theorem store_context {event : ContextEvent} (hinv : EntriesInv s) (h : StoreInv s)
    (hknew : ContextKnew s (.context event)) (happly : applyContextEvent s event = .ok t) :
    StoreInv t := by
  cases event with
  | entriesApplied baseRevision es =>
    obtain ⟨-, m, hm, rfl⟩ := entriesApplied_eq_ok.mp happly
    obtain ⟨-, -, hm⟩ := applyEntriesApplied_eq_ok.mp hm
    exact (applyEntries_store hinv h hknew.1 hknew.2 hm).bump
  | entriesRemoved baseRevision entryIds reason =>
    obtain ⟨-, -, -, -, -, rfl⟩ := entriesRemoved_eq_ok.mp happly
    refine (h.filter hinv ?_).bump
    rcases hknew with ⟨plan, hplan, rfl⟩ | ⟨-, rfl⟩
    · exact h.plan plan hplan
    · exact providerCompacted_takesOldest h.chained hinv.sorted h.recorded
  | keysRemoved baseRevision keys =>
    obtain ⟨-, -, -, rfl⟩ := keysRemoved_eq_ok.mp happly
    exact (removeKeys_store keys hinv h).bump
  | keyPrefixReplaced baseRevision keyPrefix es =>
    obtain ⟨-, hvalid, -, m, hm, rfl⟩ := keyPrefixReplaced_eq_ok.mp happly
    have hremoved : StoreInv (removeContextEntriesByKeyPrefix s keyPrefix) :=
      h.filter hinv (keepsNewest_of_key fun k => !k.any (contextKeyStartsWith · keyPrefix))
    have hpending : (removeContextEntriesByKeyPrefix s keyPrefix).context.compaction.isPending =
        false := hknew
    split_ifs at hm
    · cases hm
      exact hremoved.bump
    · obtain ⟨-, -, hm⟩ := applyEntriesApplied_eq_ok.mp hm
      exact (applyEntries_store (hinv.of_sublist List.filter_sublist) hremoved
        (prefixEntries_wellKeyed hvalid) (.inl hpending) hm).bump
  | entriesReplaced baseRevision es =>
    obtain ⟨-, -, -, hvalid, rfl⟩ := entriesReplaced_eq_ok.mp happly
    obtain ⟨hpending, hsupersedes⟩ := hknew
    have hkeeps : ∀ e ∈ es, ∀ old ∈ s.context.entries, old.entryId = e.entryId →
        e.kind = old.kind ∧ e.key = old.key ∧ e.source = old.source ∧
          e.supersedes = old.supersedes := by
      intro e he old hold hid
      have hget : entryById s e.entryId = some old := hid ▸ entryById_of_mem hinv hold
      have hchecked := hvalid e he
      simp only [validateRecordedEntryReplacement, bind_eq_ok, orError_eq_ok, require_eq_ok,
        exists_unit] at hchecked
      obtain ⟨active, hactive, ⟨hkind, hkey, hsource⟩, -⟩ := hchecked
      obtain rfl : active = old := Option.mem_unique hactive hget
      exact ⟨hkind, hkey, hsource, hsupersedes e he active hactive⟩
    obtain ⟨f, hmap, hf⟩ := replaceEntries_map hkeeps
    rw [hmap]
    exact (h.map hpending hf).bump
  | compactionRequested baseRevision trigger plan =>
    obtain ⟨-, -, -, -, -, -, rfl⟩ := compactionRequested_eq_ok.mp happly
    refine StoreInv.bump ⟨h.chained, h.capped, fun run' hactive' => ?_, ?_⟩
    · obtain ⟨run, hactive, rfl⟩ := Option.map_eq_some_iff.mp hactive'
      obtain ⟨hids, hsupplies⟩ := recordCompactionAttempt_recorded s trigger run
      exact (h.recorded run hactive).mono (fun _ h => hids ▸ h) (fun _ h => hsupplies ▸ h)
        (fun e he => ⟨e, he, rfl, rfl, rfl⟩) le_rfl
    · intro other hother
      obtain rfl : plan = other := Option.some.inj hother
      have hcovered : plan.coveredEntryIds = standalonePrefixIds s := hknew
      rw [hcovered]
      exact standalonePrefixIds_takesOldest h.chained hinv.sorted
  | compactionQueued baseRevision =>
    obtain ⟨-, -, -, rfl⟩ := compactionQueued_eq_ok.mp happly
    exact ⟨h.chained, h.capped, fun run hactive => ⟨(h.recorded run hactive).bound,
      (h.recorded run hactive).plain, (h.recorded run hactive).reserved,
      (h.recorded run hactive).supplied⟩, by rintro plan ⟨⟩⟩
  | compactionFinished baseRevision status failureRef usage calls =>
    obtain ⟨-, -, -, rfl⟩ := compactionFinished_eq_ok.mp happly
    refine ⟨h.chained, h.capped, fun run' hactive' => ?_, by rintro plan ⟨⟩⟩
    obtain ⟨run, hactive, rfl⟩ := Option.map_eq_some_iff.mp hactive'
    exact (h.recorded run hactive).mono (fun _ h => h) (fun _ h => h)
      (fun e he => ⟨e, he, rfl, rfl, rfl⟩) le_rfl

theorem store_run {seq ms : Nat} {event : RunEvent} (hinv : Inv s) (h : StoreInv s)
    (hknew : Knew base input s (.run event)) (happly : applyRunEvent s seq ms event = .ok t) :
    StoreInv t := by
  have hsame : SameContext s t := by
    rw [applyRunEvent_frame happly]
    exact .of_eq rfl rfl
  have hkeep : (∀ run', t.runs.active = some run' → ∃ run, s.runs.active = some run ∧
      (∀ id ∈ run'.recordedIds, id ∈ run.recordedIds) ∧
      ∀ content ∈ run'.supplies, content ∈ run.supplies) → StoreInv t :=
    fun hruns => h.of_same hsame.entries hsame.compaction hsame.cursor hruns
  cases applyRunEvent_moves happly with
  | queues hqueues hactive =>
    exact hkeep fun run hrun => ⟨run, hactive ▸ hrun, fun _ h => h, fun _ h => h⟩
  | @starts queued rest hfree hqueue =>
    refine ⟨h.chained, h.capped, ?_, h.plan⟩
    rintro run ⟨⟩
    refine ⟨by rintro id ⟨⟩, by rintro id ⟨⟩, by rintro id ⟨⟩, fun content hcontent => ?_⟩
    have hsource : content ∈ queued.source.input ++ [] := hcontent
    rw [List.append_nil] at hsource
    exact hinv.queued queued (hqueue ▸ List.mem_cons_self) content hsource
  | steers hactive =>
    have hold := h.recorded _ hactive
    refine ⟨h.chained, h.capped, ?_, h.plan⟩
    rintro run' ⟨⟩
    refine ⟨fun id hid => hold.bound id ?_, fun id hid => hold.plain id ?_,
      fun id hid => hold.reserved id ?_, fun content hmem => ?_⟩
    · simpa [ActiveRun.recordedIds] using hid
    · simpa [ActiveRun.recordedIds] using hid
    · simpa [ActiveRun.recordedIds] using hid
    · simp only [ActiveRun.supplies, List.flatMap_append, List.flatMap_cons, List.flatMap_nil,
        List.append_nil, ← List.append_assoc] at hmem
      rcases List.mem_append.mp hmem with hmem | hmem
      · exact hold.supplied content hmem
      · exact hknew content hmem
  | stops hactive =>
    refine hkeep ?_
    rintro run' ⟨⟩
    exact ⟨_, hactive, fun _ h => h, fun _ h => h⟩
  | ends =>
    refine hkeep ?_
    rintro run' ⟨⟩

/-- Every event keeps the store that is warranted and knows its context. -/
theorem store_step (hinv : Inv s) (h : StoreInv s) (hw : Warrant base input s entry)
    (hcontext : ContextKnew s entry.event) (happly : applyEvent s entry = .ok t) : StoreInv t := by
  cases hevent : entry.event with
  | context event =>
    obtain ⟨-, m, hm, rfl⟩ := applyEvent_eq_ok.mp happly
    simp only [applyEventKind, hevent] at hm
    have hm' := store_context hinv.entries h (hevent ▸ hcontext) hm
    exact hm'.of_same rfl rfl rfl fun run hactive => ⟨run, hactive, fun _ h => h, fun _ h => h⟩
  | run event =>
    obtain ⟨-, m, hm, rfl⟩ := applyEvent_eq_ok.mp happly
    simp only [applyEventKind, hevent] at hm
    have hm' := store_run hinv h (hevent ▸ hw.knew) hm
    exact hm'.of_same rfl rfl rfl fun run hactive => ⟨run, hactive, fun _ h => h, fun _ h => h⟩
  | _ =>
    have hsame := applyEvent_sameContext (by rw [hevent]; rfl) happly
    refine h.of_same hsame.entries hsame.compaction hsame.cursor fun run' hactive' => ?_
    obtain ⟨run, hactive, hmoved⟩ :=
      applyEvent_moved (by rw [hevent]; rfl) (by rw [hevent]; rfl) happly run' hactive'
    exact ⟨run, hactive, hmoved.recorded⟩

theorem reachable_store (h : Reachable sessionId s log) : StoreInv s :=
  reachable_preserves_contexts (P := fun s _ => StoreInv s) storeInv_init
    (fun _ _ _ _ _ _ hinv hs hw hcontext ht => store_step hinv hs hw hcontext ht) h

/-! ## Ids -/

/-- The ids that one event gives out. -/
def CoreAgentEvent.appliedEntryIds : CoreAgentEvent → List ContextEntryId
  | .context (.entriesApplied _ entries) | .context (.keyPrefixReplaced _ _ entries) =>
    entries.map ContextEntry.entryId
  | _ => []

/-- The ids that were given to entries over a log, in order. -/
def appliedEntryIds (log : List CoreAgentEntry) : List ContextEntryId :=
  log.flatMap (fun entry => entry.event.appliedEntryIds)

/-- An event numbers its entries from the cursor on. -/
theorem appliedEntryIds_step (hinv : EntriesInv s) (happly : applyEvent s entry = .ok t) :
    entry.event.appliedEntryIds = List.range' (s.idCursors.lastContextEntryId + 1)
        entry.event.appliedEntryIds.length ∧
      t.idCursors.lastContextEntryId =
        s.idCursors.lastContextEntryId + entry.event.appliedEntryIds.length := by
  cases hevent : entry.event with
  | context event =>
    obtain ⟨-, m, hm, rfl⟩ := applyEvent_eq_ok.mp happly
    simp only [applyEventKind, hevent] at hm
    cases event with
    | entriesApplied baseRevision es =>
      obtain ⟨-, m', hentries, rfl⟩ := entriesApplied_eq_ok.mp hm
      obtain ⟨-, -, hwritten⟩ := applyEntriesApplied_eq_ok.mp hentries
      obtain ⟨-, -, -, hids, hcursor⟩ := applyEntries_spec hinv hwritten
      simp only [CoreAgentEvent.appliedEntryIds, List.length_map]
      exact ⟨hids, hcursor⟩
    | keyPrefixReplaced baseRevision keyPrefix es =>
      obtain ⟨-, -, -, m', hentries, rfl⟩ := keyPrefixReplaced_eq_ok.mp hm
      simp only [CoreAgentEvent.appliedEntryIds, List.length_map]
      split_ifs at hentries with hempty
      · cases hentries
        rw [hempty]
        exact ⟨rfl, rfl⟩
      · obtain ⟨-, -, hwritten⟩ := applyEntriesApplied_eq_ok.mp hentries
        obtain ⟨-, -, -, hids, hcursor⟩ :=
          applyEntries_spec (s := removeContextEntriesByKeyPrefix s keyPrefix)
            (hinv.of_sublist List.filter_sublist) hwritten
        exact ⟨hids, hcursor⟩
    | entriesRemoved baseRevision entryIds reason =>
      obtain ⟨-, -, -, -, -, rfl⟩ := entriesRemoved_eq_ok.mp hm
      exact ⟨rfl, rfl⟩
    | keysRemoved baseRevision keys =>
      obtain ⟨-, -, -, rfl⟩ := keysRemoved_eq_ok.mp hm
      obtain ⟨_, heq, -⟩ := removeKeys_sublist keys s
      rw [heq]
      exact ⟨rfl, rfl⟩
    | entriesReplaced baseRevision es =>
      obtain ⟨-, -, -, -, rfl⟩ := entriesReplaced_eq_ok.mp hm
      exact ⟨rfl, rfl⟩
    | compactionRequested baseRevision trigger plan =>
      obtain ⟨-, -, -, -, -, -, rfl⟩ := compactionRequested_eq_ok.mp hm
      exact ⟨rfl, rfl⟩
    | compactionQueued baseRevision =>
      obtain ⟨-, -, -, rfl⟩ := compactionQueued_eq_ok.mp hm
      exact ⟨rfl, rfl⟩
    | compactionFinished baseRevision status failureRef usage calls =>
      obtain ⟨-, -, -, rfl⟩ := compactionFinished_eq_ok.mp hm
      exact ⟨rfl, rfl⟩
  | _ => exact ⟨rfl, (applyEvent_sameContext (by rw [hevent]; rfl) happly).cursor⟩

theorem reachable_appliedEntryIds (h : Reachable sessionId s log) :
    appliedEntryIds log = List.range' 1 s.idCursors.lastContextEntryId := by
  refine reachable_preserves
    (P := fun s log => appliedEntryIds log = List.range' 1 s.idCursors.lastContextEntryId) rfl ?_ h
  intro base input s log entry t hinv hs _ happly
  obtain ⟨hids, hcursor⟩ := appliedEntryIds_step hinv.entries happly
  have happend : appliedEntryIds (log ++ [entry]) =
      appliedEntryIds log ++ entry.event.appliedEntryIds := by
    simp [appliedEntryIds]
  rw [happend, hs, hids, hcursor, Nat.add_comm, List.range'_append_1]

/-- The active entries stand in the order of their ids, the cursor has counted each of them, and no id is
given to two entries. Under each key in use stands one entry, or the last versions of a catalog, of which
the newest is not superseded and each older one is superseded by an active entry of the same key. -/
theorem context_store (h : Reachable sessionId s log) :
    (s.context.entries.map ContextEntry.entryId).Pairwise (· < ·) ∧
      (∀ e ∈ s.context.entries, e.entryId ≤ s.idCursors.lastContextEntryId) ∧
      (appliedEntryIds log).Nodup ∧
      ∀ key, (carriers s.context.entries key).length = 1 ∨
        ((∀ e ∈ carriers s.context.entries key, isSupersedableCatalogKind e.kind = true) ∧
          (carriers s.context.entries key).length ≤ supersededCatalogCap + 1 ∧
          ∀ e ∈ carriers s.context.entries key,
            (isSupersededContextEntry s e.entryId = false ↔
              ∀ other ∈ carriers s.context.entries key, other.entryId ≤ e.entryId) ∧
            ((∃ other ∈ carriers s.context.entries key, e.entryId < other.entryId) →
              ∃ next ∈ carriers s.context.entries key, next.supersedes = some e.entryId)) := by
  have hentries := (reachable_inv h).1.entries
  have hstore := reachable_store h
  refine ⟨hentries.sorted, hentries.bound, ?_, fun key => ?_⟩
  · rw [reachable_appliedEntryIds h]
    exact List.nodup_range'
  have hnext : ∀ e ∈ carriers s.context.entries key, ∀ other ∈ carriers s.context.entries key,
      e.entryId < other.entryId → isSupersedableCatalogKind e.kind = true ∧
        isSupersedableCatalogKind other.kind = true ∧
        ∃ next ∈ carriers s.context.entries key, next.supersedes = some e.entryId := by
    intro e he other hother hlt
    obtain ⟨he, hkey⟩ := mem_carriers.mp he
    obtain ⟨hother, hkey'⟩ := mem_carriers.mp hother
    obtain ⟨hkind, hkind', next, hnext, hnextKey, hlink⟩ := hstore.chained.superseded hentries.sorted
      he hother (by simp [hkey]) (hkey.trans hkey'.symm) hlt
    exact ⟨hkind, hkind', next, mem_carriers.mpr ⟨hnext, hnextKey.trans hkey⟩, hlink⟩
  have hsorted : (carriers s.context.entries key).Pairwise (fun a b => a.entryId < b.entryId) :=
    (List.pairwise_map.mp hentries.sorted).sublist List.filter_sublist
  by_cases hone : (carriers s.context.entries key).length = 1
  · exact .inl hone
  refine .inr ⟨?_, hstore.capped key, fun e he => ⟨⟨?_, ?_⟩, ?_⟩⟩
  · cases hcarriers : carriers s.context.entries key with
    | nil => exact fun e he => absurd he List.not_mem_nil
    | cons first rest =>
      cases rest with
      | nil => exact absurd (by rw [hcarriers]; rfl) hone
      | cons second rest =>
        rw [hcarriers] at hnext hsorted
        intro e he
        rcases List.mem_cons.mp he with rfl | he
        · exact (hnext e List.mem_cons_self second (by simp)
            ((List.pairwise_cons.mp hsorted).1 second (by simp))).1
        · exact (hnext first List.mem_cons_self e (List.mem_cons_of_mem _ he)
            ((List.pairwise_cons.mp hsorted).1 e he)).2.1
  · intro hcurrent other hother
    by_contra hlt
    obtain ⟨-, -, next, hmem, hlink⟩ := hnext e he other hother (not_le.mp hlt)
    have hsuperseded : isSupersededContextEntry s e.entryId = true :=
      List.any_eq_true.mpr ⟨next, (mem_carriers.mp hmem).1, by simp [hlink]⟩
    rw [hcurrent] at hsuperseded
    cases hsuperseded
  · intro hnewest
    refine List.any_eq_false.mpr fun next hmem hlink => ?_
    rw [beq_iff_eq] at hlink
    obtain ⟨he, hkey⟩ := mem_carriers.mp he
    obtain ⟨hlt, hother⟩ := hstore.chained.back next hmem e.entryId hlink
    have hnextKey := (hother e he rfl).symm.trans hkey
    exact absurd hlt (hnewest next (mem_carriers.mpr ⟨hmem, hnextKey⟩)).not_gt
  · rintro ⟨other, hother, hlt⟩
    exact (hnext e he other hother hlt).2.2

/-- A session that writes one more version of a catalog than it keeps. -/
def catalogVersions : List (Nat × DriveInput) :=
  (0, .admitCommand (.openSession sampleConfig)) ::
    ["a", "b", "c", "d", "e", "f", "g"].map fun text =>
      (1, .admitCommand (.upsertContext none "client.skills"
        { kind := .catalog "Skills", content := { contentRef := ⟨text⟩ } }))

theorem context_store_catalogVersions :
    ∃ s log, (drive "session").exec catalogVersions = some (s, log) ∧
      (carriers s.context.entries "client.skills").map ContextEntry.entryId = [2, 3, 4, 5, 6, 7] ∧
      (carriers s.context.entries "client.skills").length ≤ supersededCatalogCap + 1 ∧
      (appliedEntryIds log).Nodup := by
  obtain ⟨⟨s, log⟩, hexec, hkept⟩ : ∃ p ∈ (drive "session").exec catalogVersions,
      (carriers p.1.context.entries "client.skills").map ContextEntry.entryId = [2, 3, 4, 5, 6, 7] := by
    decide +kernel
  obtain ⟨-, -, hnodup, hkeys⟩ := context_store (EventSource.exec_reaches hexec)
  refine ⟨s, log, hexec, hkept, ?_, hnodup⟩
  rcases hkeys "client.skills" with hone | ⟨-, hcap, -⟩
  · have hlength := congrArg List.length hkept
    rw [List.length_map, hone] at hlength
    cases hlength
  · exact hcap

end Lightspeed.Harness
