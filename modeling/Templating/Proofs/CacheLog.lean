import Templating.Proofs.CacheUse

/-!
What the log of a cache in use tells. Outside development a path keeps the unit it was first
answered with until it is given up, and the inline units are those of the keys that came in last. In
development everything is compiled again.
-/
namespace Templating

variable {κ ε : Type} [DecidableEq κ] {key : String → String → κ}

namespace CacheEvent

/-- After this a path may be answered with another unit. -/
def givesUp (path : String) : CacheEvent → Prop
  | invalidated other => other = path
  | cleared => True
  | _ => False

/-- An inline source is compiled as it was asked for. -/
def AsRequested : CacheEvent → Prop
  | compiled (.inline source path) template => template.source = source ∧ template.path = path
  | _ => True

instance : DecidablePred AsRequested
  | compiled (.inline source path) template =>
    inferInstanceAs (Decidable (template.source = source ∧ template.path = path))
  | compiled (.path _) _ | asked _ | compiling _ | answered _ _ | failed _ | invalidated _
  | cleared => inferInstanceAs (Decidable True)

end CacheEvent

namespace Cache

def inlineKeys (c : Cache κ) : List κ := c.inlineUnits.map Prod.fst

theorem keys_setUnit (k : κ) (unit : CachedUnit) (units : List (κ × CachedUnit)) :
    (setUnit k unit units).map Prod.fst =
      if k ∈ units.map Prod.fst then units.map Prod.fst else units.map Prod.fst ++ [k] := by
  induction units with
  | nil => rfl
  | cons entry rest ih =>
    obtain ⟨k', u⟩ := entry
    unfold setUnit
    by_cases h : k' = k
    · simp [h]
    · rw [if_neg h]
      simp only [List.map_cons, List.mem_cons, Ne.symm h, false_or, ih]
      split
      · rfl
      · rfl

theorem keys_evict (k : κ) (units : List (κ × CachedUnit)) :
    (evict k units).map Prod.fst =
      if maxInlineUnits ≤ units.length ∧ k ∉ units.map Prod.fst then (units.map Prod.fst).drop 1
      else units.map Prod.fst := by
  have hnone : (units.lookup k).isNone ↔ k ∉ units.map Prod.fst := by
    rw [Option.isNone_iff_eq_none, List.lookup_eq_none_iff]
    constructor
    · intro h hmem
      obtain ⟨entry, hentry, rfl⟩ := List.mem_map.mp hmem
      simpa using h entry hentry
    · intro h entry hentry
      simpa using fun heq : k = entry.1 => h (heq ▸ List.mem_map_of_mem hentry)
  unfold evict
  simp only [hnone]
  split
  · exact List.map_drop
  · rfl

theorem keys_setUnit_evict (k : κ) (unit : CachedUnit) (units : List (κ × CachedUnit)) :
    (setUnit k unit (evict k units)).map Prod.fst =
      if k ∈ units.map Prod.fst then units.map Prod.fst
      else (if maxInlineUnits ≤ units.length then (units.map Prod.fst).drop 1
        else units.map Prod.fst) ++ [k] := by
  rw [keys_setUnit, keys_evict]
  by_cases hmem : k ∈ units.map Prod.fst
  · simp only [hmem, not_true, and_false, if_false, if_true]
  · by_cases hfull : maxInlineUnits ≤ units.length
    · have hdrop : k ∉ (units.map Prod.fst).drop 1 := fun h => hmem (List.mem_of_mem_drop h)
      simp only [hmem, hfull, not_false_eq_true, and_true, if_true, if_false, hdrop]
    · simp only [hmem, hfull, false_and, if_false]

theorem find?_of_development {c : Cache κ} (what : Lookup) (h : c.development = true) :
    c.find? key what = none := by
  cases what with
  | path path => exact if_pos h
  | inline source path => exact if_pos h

variable (c : Cache κ)

theorem settle_of_find {what : Lookup} {unit : CachedUnit} (template : Template)
    (h : c.find? key what = some unit) :
    c.settle key what template = (unit, { c with serial := c.serial + 1 }) := by
  cases what with
  | path path => simp only [settle, settlePath, show c.reusable? path = some unit from h]
  | inline source path =>
    simp only [settle, settleInline,
      show c.reusableInline? (key source path) source path = some unit from h]

theorem settle_path {path : String} (template : Template)
    (h : c.find? key (.path path) = none) :
    c.settle key (.path path) template =
      (⟨c.serial, template⟩, { c with
        serial := c.serial + 1
        units := setUnit path ⟨c.serial, template⟩ c.units }) :=
  settlePath_of_missed template h

theorem settle_inline {source path : String} (template : Template)
    (h : c.find? key (.inline source path) = none) :
    c.settle key (.inline source path) template =
      (⟨c.serial, template⟩,
        if c.development then { c with serial := c.serial + 1 }
        else
          { c with
            serial := c.serial + 1
            inlineUnits := setUnit (key source path) ⟨c.serial, template⟩
              (evict (key source path) c.inlineUnits) }) :=
  settleInline_of_missed template h

theorem development_settle (what : Lookup) (template : Template) :
    (c.settle key what template).2.development = c.development := by
  cases h : c.find? key what with
  | some unit => rw [settle_of_find c template h]
  | none =>
    cases what with
    | path path => rw [settle_path c template h]
    | inline source path =>
      rw [settle_inline c template h]
      split
      · rfl
      · rfl

/-- A path is given the unit that its compilation comes to. -/
theorem lookup_settle (path : String) (template : Template) :
    (c.settle key (.path path) template).2.units.lookup path =
      some (c.settle key (.path path) template).1 := by
  cases h : c.find? key (.path path) with
  | some unit =>
    rw [settle_of_find c template h]
    exact lookup_of_reusable h
  | none =>
    rw [settle_path c template h, lookup_setUnit, if_pos rfl]

/-- A unit that can be used stays. -/
theorem lookup_settle_of_reusable {path : String} {unit : CachedUnit} (what : Lookup)
    (template : Template) (hreusable : c.reusable? path = some unit) :
    (c.settle key what template).2.units.lookup path = some unit := by
  have hlookup := lookup_of_reusable hreusable
  cases h : c.find? key what with
  | some _ =>
    rw [settle_of_find c template h]
    exact hlookup
  | none =>
    cases what with
    | path other =>
      rw [settle_path c template h, lookup_setUnit]
      have hne : path ≠ other := by
        rintro rfl
        rw [find?, hreusable] at h
        cases h
      rw [if_neg hne]
      exact hlookup
    | inline source other =>
      rw [settle_inline c template h]
      split
      · exact hlookup
      · exact hlookup

theorem inlineKeys_settle_path (path : String) (template : Template) :
    (c.settle key (.path path) template).2.inlineKeys = c.inlineKeys := by
  cases h : c.find? key (.path path) with
  | some _ => rw [settle_of_find c template h]; rfl
  | none => rw [settle_path c template h]; rfl

theorem mem_inlineKeys_of_find {source path : String} {unit : CachedUnit}
    (h : c.find? key (.inline source path) = some unit) : key source path ∈ c.inlineKeys := by
  rw [find?, reusableInline?] at h
  split at h
  · cases h
  · obtain ⟨hlookup, -⟩ := Option.filter_eq_some_iff.mp h
    exact List.mem_map_of_mem (mem_of_lookup hlookup)

theorem inlineKeys_settle_inline (source path : String) (template : Template)
    (hdevelopment : c.development = false) :
    (c.settle key (.inline source path) template).2.inlineKeys =
      if key source path ∈ c.inlineKeys then c.inlineKeys
      else (if maxInlineUnits ≤ c.inlineKeys.length then c.inlineKeys.drop 1
        else c.inlineKeys) ++ [key source path] := by
  cases h : c.find? key (.inline source path) with
  | some unit =>
    rw [settle_of_find c template h, if_pos (mem_inlineKeys_of_find c h)]
    rfl
  | none =>
    rw [settle_inline c template h, if_neg (by simp [hdevelopment])]
    simp only [inlineKeys, List.length_map]
    exact keys_setUnit_evict _ _ _

theorem inlineUnits_settle (what : Lookup) (template : Template)
    (hdevelopment : c.development = true) :
    (c.settle key what template).2.inlineUnits = c.inlineUnits := by
  cases h : c.find? key what with
  | some unit => rw [settle_of_find c template h]
  | none =>
    cases what with
    | path path => rw [settle_path c template h]
    | inline source path => rw [settle_inline c template h, if_pos hdevelopment]

theorem isFor_of_find {source path : String} {unit : CachedUnit}
    (h : c.find? key (.inline source path) = some unit) :
    unit.template.source = source ∧ unit.template.path = path := by
  rw [find?, reusableInline?] at h
  split at h
  · cases h
  · obtain ⟨-, hfor⟩ := Option.filter_eq_some_iff.mp h
    simpa [CachedUnit.isFor] using hfor

theorem settle_inline_isFor {source path : String} {template : Template}
    (h : template.source = source ∧ template.path = path) :
    let unit := (c.settle key (.inline source path) template).1
    unit.template.source = source ∧ unit.template.path = path := by
  cases hfind : c.find? key (.inline source path) with
  | some unit =>
    rw [settle_of_find c template hfind]
    exact isFor_of_find c hfind
  | none =>
    rw [settle_inline c template hfind]
    split
    · exact h
    · exact h

end Cache

namespace CacheLog

/-- The keys under which inline units have come in, the last one first. A key that is held already
keeps its place. -/
def insertions (key : String → String → κ) : CacheLog κ → List κ
  | [] => []
  | ⟨.answered (.inline source path) _, _⟩ :: earlier =>
    if key source path ∈ (insertions key earlier).take maxInlineUnits then insertions key earlier
    else key source path :: insertions key earlier
  | ⟨.cleared, _⟩ :: _ => []
  | _ :: earlier => insertions key earlier

variable {development : Bool} {log newer older : CacheLog κ} {moment : CacheMoment κ}

theorem Possible.split (h : Possible key development (newer ++ moment :: older)) :
    Follows key development older moment ∧ Possible key development older := by
  induction newer with
  | nil =>
    cases h with
    | cons hpossible hfollows => exact ⟨hfollows, hpossible⟩
  | cons _ newer ih =>
    cases h with
    | cons hpossible hfollows => exact ih hpossible

theorem Follows.development_eq (h : Follows key development log moment) :
    moment.cache.development = (log.cache development).development := by
  cases h with
  | settled => exact Cache.development_settle _ _ _
  | _ => rfl

theorem Possible.development_eq (h : Possible key development log) :
    (log.cache development).development = development := by
  induction h with
  | nil => rfl
  | cons hpossible hfollows ih => exact hfollows.development_eq.trans ih

/-- The answer to a path is the unit that is stored under it. -/
theorem Follows.stored {path : String} {unit : CachedUnit} {c : Cache κ}
    (h : Follows key development log ⟨.answered (.path path) unit, c⟩) :
    c.units.lookup path = some unit := by
  cases h with
  | found hfind => exact Cache.lookup_of_reusable hfind
  | settled => exact Cache.lookup_settle _ _ _

/-- The unit of a path stays until it is given up. -/
theorem Follows.lookup_eq {path : String} {unit : CachedUnit}
    (h : Follows key false log moment) (hdevelopment : (log.cache false).development = false)
    (hlookup : (log.cache false).units.lookup path = some unit)
    (hkept : ¬ moment.event.givesUp path) : moment.cache.units.lookup path = some unit := by
  cases h with
  | @settled log c what template =>
    have hoff : c.development = false := hdevelopment
    have hreusable : c.reusable? path = some unit := by
      rw [Cache.reusable?, if_neg (by simp [hoff])]
      exact hlookup
    exact Cache.lookup_settle_of_reusable c what template hreusable
  | invalidated other =>
    have hne : path ≠ other := fun h => hkept h.symm
    change List.lookup path (List.filter _ _) = _
    rw [Cache.lookup_filter_ne, if_neg hne]
    exact hlookup
  | cleared => exact absurd trivial hkept
  | _ => exact hlookup

theorem Possible.lookup_eq {path : String} {unit : CachedUnit} {between : CacheLog κ}
    (h : Possible key false (between ++ log))
    (hlookup : (log.cache false).units.lookup path = some unit)
    (hkept : ∀ m ∈ between, ¬ m.event.givesUp path) :
    (cache false (between ++ log)).units.lookup path = some unit := by
  induction between with
  | nil => exact hlookup
  | cons m between ih =>
    cases h with
    | cons hpossible hfollows =>
      have hbetween := ih hpossible fun m hm => hkept m (List.mem_cons_of_mem _ hm)
      exact hfollows.lookup_eq hpossible.development_eq hbetween (hkept m (List.mem_cons_self ..))

theorem Possible.lookup_of_answered {path : String} {unit : CachedUnit} {c : Cache κ}
    {between : CacheLog κ}
    (h : Possible key false (between ++ ⟨.answered (.path path) unit, c⟩ :: older))
    (hkept : ∀ m ∈ between, ¬ m.event.givesUp path) :
    (cache false (between ++ ⟨.answered (.path path) unit, c⟩ :: older)).units.lookup path =
      some unit :=
  h.lookup_eq h.split.1.stored hkept

theorem Follows.cache_eq {what : Lookup} {c : Cache κ}
    (h : Follows key development log ⟨.asked what, c⟩) : c = log.cache development := by
  cases h with
  | asked => rfl

/-- A question is taken up at once. -/
theorem Follows.of_asked {what : Lookup} {c : Cache κ}
    (h : Follows key development (⟨.asked what, c⟩ :: older) moment) :
    (∃ unit, c.find? key what = some unit ∧ moment = ⟨.answered what unit, c⟩) ∨
      c.find? key what = none ∧ moment = ⟨.compiling what, c⟩ := by
  cases h with
  | found hfind => exact .inl ⟨_, hfind, rfl⟩
  | compiling hfind => exact .inr ⟨hfind, rfl⟩
  | asked _ hidle => exact hidle.elim
  | compiled _ _ hidle => exact hidle.elim
  | failed _ hidle => exact hidle.elim
  | invalidated _ hidle => exact hidle.elim
  | cleared hidle => exact hidle.elim

theorem Rests.next_of_asked {what : Lookup} {c : Cache κ} {last : Cache κ}
    (h : Rests key development last (newer ++ ⟨.asked what, c⟩ :: older)) :
    ∃ later moment, newer = later ++ [moment] ∧
      Follows key development (⟨.asked what, c⟩ :: older) moment ∧
      Possible key development (⟨.asked what, c⟩ :: older) := by
  rcases List.eq_nil_or_concat newer with rfl | ⟨later, moment, hnewer⟩
  · exact h.idle.elim
  · rw [List.concat_eq_append] at hnewer
    subst hnewer
    have hpossible := h.possible
    rw [List.append_assoc] at hpossible
    exact ⟨later, moment, rfl, hpossible.split⟩

/-- Room for a key that is new: what is left are the last ones but one. -/
theorem reverse_take_pred {α : Type} (keys : List α) (limit : Nat) :
    (if limit ≤ (keys.take limit).reverse.length then (keys.take limit).reverse.drop 1
      else (keys.take limit).reverse) = (keys.take (limit - 1)).reverse := by
  rw [List.length_reverse, List.length_take]
  split
  · rename_i h
    rw [List.drop_one, List.tail_reverse, List.dropLast_eq_take, List.take_take, List.length_take]
    congr 2
    omega
  · rw [List.take_of_length_le (by omega), List.take_of_length_le (by omega)]

theorem Follows.inlineKeys_eq (h : Follows key development log moment)
    (hdevelopment : (log.cache development).development = false)
    (hkeys : (log.cache development).inlineKeys =
      ((insertions key log).take maxInlineUnits).reverse) :
    moment.cache.inlineKeys = ((insertions key (moment :: log)).take maxInlineUnits).reverse := by
  cases h with
  | @found log c what unit hfind =>
    cases what with
    | path path => exact hkeys
    | inline source path =>
      have hmem := Cache.mem_inlineKeys_of_find c hfind
      rw [show c.inlineKeys = _ from hkeys, List.mem_reverse] at hmem
      unfold insertions
      rw [if_pos hmem]
      exact hkeys
  | @settled log c what template =>
    change c.inlineKeys = _ at hkeys
    cases what with
    | path path => exact (Cache.inlineKeys_settle_path c path template).trans hkeys
    | inline source path =>
      change (c.settle key (.inline source path) template).2.inlineKeys = _
      rw [Cache.inlineKeys_settle_inline c source path template hdevelopment, hkeys]
      conv => rhs; unfold insertions
      simp only [List.mem_reverse]
      split
      · rfl
      · have hlimit : maxInlineUnits = (maxInlineUnits - 1) + 1 := rfl
        rw [reverse_take_pred]
        conv => rhs; rw [hlimit, List.take_succ_cons, List.reverse_cons]
  | cleared => rfl
  | _ => exact hkeys

theorem Possible.inlineKeys_eq (h : Possible key false log) :
    (log.cache false).inlineKeys = ((insertions key log).take maxInlineUnits).reverse := by
  induction h with
  | nil => rfl
  | cons hpossible hfollows ih => exact hfollows.inlineKeys_eq hpossible.development_eq ih

theorem Follows.isFor {source path : String} {unit : CachedUnit} {c : Cache κ}
    (h : Follows key development log ⟨.answered (.inline source path) unit, c⟩)
    (hrequested : ∀ m ∈ log, m.event.AsRequested) :
    unit.template.source = source ∧ unit.template.path = path := by
  cases h with
  | @found _ c _ _ hfind => exact Cache.isFor_of_find c hfind
  | @settled log c what template =>
    exact Cache.settle_inline_isFor c (hrequested ⟨_, _⟩ (List.mem_cons_self ..))

/-- Nothing inline is kept in development. -/
theorem Possible.inlineUnits_eq (h : Possible key true log) :
    (log.cache true).inlineUnits = [] := by
  induction h with
  | nil => rfl
  | cons hpossible hfollows ih =>
    cases hfollows with
    | @settled log c what template =>
      exact (Cache.inlineUnits_settle c what template hpossible.development_eq).trans ih
    | cleared => rfl
    | _ => exact ih

/-- What a log tells outside development. -/
structure Keeps (key : String → String → κ) (log : CacheLog κ) : Prop where
  /-- Once a path has been answered, it is answered at once and alike until it is given up. -/
  path_stays {newer between older : CacheLog κ} {path : String} {unit : CachedUnit}
    {c c' : Cache κ} :
    log = newer ++
      ⟨.asked (.path path), c'⟩ :: (between ++ ⟨.answered (.path path) unit, c⟩ :: older) →
    (∀ m ∈ between, ¬ m.event.givesUp path) →
    ∃ later, newer = later ++ [⟨.answered (.path path) unit, c'⟩]
  /-- So are the questions to which an answer was still due. -/
  path_agrees {newer between older : CacheLog κ} {path : String} {unit other : CachedUnit}
    {c c' : Cache κ} :
    log = newer ++
      ⟨.answered (.path path) other, c'⟩ :: (between ++ ⟨.answered (.path path) unit, c⟩ :: older) →
    (∀ m ∈ between, ¬ m.event.givesUp path) → other = unit
  inline_isFor {moment : CacheMoment κ} {source path : String} {unit : CachedUnit} :
    moment ∈ log → moment.event = .answered (.inline source path) unit →
    unit.template.source = source ∧ unit.template.path = path
  inline_bounded {moment : CacheMoment κ} :
    moment ∈ log → moment.cache.inlineUnits.length ≤ maxInlineUnits
  /-- The keys that came in last are held: a new one takes the place of the first. -/
  inline_last {newer older : CacheLog κ} {moment : CacheMoment κ} :
    log = newer ++ moment :: older →
    moment.cache.inlineKeys = ((insertions key (moment :: older)).take maxInlineUnits).reverse

/-- What a log tells in development. -/
structure Recompiles (log : CacheLog κ) : Prop where
  compiles {newer older : CacheLog κ} {what : Lookup} {c : Cache κ} :
    log = newer ++ ⟨.asked what, c⟩ :: older → ∃ later, newer = later ++ [⟨.compiling what, c⟩]
  holds_none {moment : CacheMoment κ} : moment ∈ log → moment.cache.inlineUnits = []

/-- What a log tells in any case. -/
structure Tells (log : CacheLog κ) : Prop where
  stored {moment : CacheMoment κ} {path : String} {unit : CachedUnit} :
    moment ∈ log → moment.event = .answered (.path path) unit →
    moment.cache.units.lookup path = some unit
  /-- A compilation that fails does nothing else. -/
  failed {newer older : CacheLog κ} {moment : CacheMoment κ} {what : Lookup} {c : Cache κ} :
    log = newer ++ ⟨.failed what, c⟩ :: moment :: older → c = moment.cache

variable {c : Cache κ}

theorem Rests.tells (h : Rests key development c log) : log.Tells where
  stored {moment path unit} hmem hevent := by
    obtain ⟨newer, older, rfl⟩ := List.append_of_mem hmem
    obtain ⟨_, c⟩ := moment
    cases hevent
    exact h.possible.split.1.stored
  failed {newer older moment what c} hlog := by
    subst hlog
    cases h.possible.split.1 with
    | failed => rfl

theorem Rests.recompiles (h : Rests key true c log) : log.Recompiles where
  compiles {newer older what c} hlog := by
    subst hlog
    obtain ⟨later, moment, rfl, hfollows, hpossible⟩ := h.next_of_asked
    have hmissed : c.find? key what = none :=
      Cache.find?_of_development what hpossible.development_eq
    rcases hfollows.of_asked with ⟨unit, hfind, -⟩ | ⟨-, rfl⟩
    · rw [hfind] at hmissed
      cases hmissed
    · exact ⟨later, rfl⟩
  holds_none {moment} hmem := by
    obtain ⟨newer, older, rfl⟩ := List.append_of_mem hmem
    have hsplit := h.possible.split
    exact (hsplit.2.cons hsplit.1).inlineUnits_eq

theorem Rests.keeps (h : Rests key false c log) (hrequested : ∀ m ∈ log, m.event.AsRequested) :
    log.Keeps key where
  path_stays {newer between older path unit c c'} hlog hkept := by
    subst hlog
    obtain ⟨later, moment, rfl, hfollows, hpossible⟩ := h.next_of_asked
    have hreusable : c'.reusable? path = some unit := by
      have hc : c'.development = false := hpossible.development_eq
      rw [Cache.reusable?, if_neg (by simp [hc])]
      cases hpossible with
      | cons hpossible hasked =>
        rw [hasked.cache_eq]
        exact hpossible.lookup_of_answered hkept
    rcases hfollows.of_asked with ⟨found, hfind, rfl⟩ | ⟨hfind, -⟩
    · cases hfind.symm.trans hreusable
      exact ⟨later, rfl⟩
    · cases hfind.symm.trans hreusable
  path_agrees {newer between older path unit other c c'} hlog hkept := by
    subst hlog
    obtain ⟨hfollows, hpossible⟩ := h.possible.split
    have hlookup := hpossible.lookup_of_answered hkept
    have hstays := hfollows.lookup_eq hpossible.development_eq hlookup id
    exact Option.some.inj (hfollows.stored.symm.trans hstays)
  inline_isFor {moment source path unit} hmem hevent := by
    obtain ⟨newer, older, rfl⟩ := List.append_of_mem hmem
    obtain ⟨_, c⟩ := moment
    cases hevent
    exact h.possible.split.1.isFor fun m hm =>
      hrequested m (List.mem_append_right _ (List.mem_cons_of_mem _ hm))
  inline_bounded {moment} hmem := by
    obtain ⟨newer, older, rfl⟩ := List.append_of_mem hmem
    obtain ⟨hfollows, hpossible⟩ := h.possible.split
    have hkeys : moment.cache.inlineKeys = _ := (hpossible.cons hfollows).inlineKeys_eq
    have hlength : moment.cache.inlineUnits.length = moment.cache.inlineKeys.length :=
      (List.length_map _).symm
    rw [hlength, hkeys, List.length_reverse]
    exact List.length_take_le ..
  inline_last {newer older moment} hlog := by
    subst hlog
    obtain ⟨hfollows, hpossible⟩ := h.possible.split
    exact (hpossible.cons hfollows).inlineKeys_eq

end CacheLog

/-- What a client of a new cache is answered, and what the cache then holds. -/
theorem CacheUse.log_tells (key : String → String → κ) (development : Bool) (use : CacheUse ε)
    (hrequested : ∀ m ∈ use.log key development, m.event.AsRequested) :
    (use.logged key (.empty development) []).1 = (use.run key).run.run (.empty development) ∧
      (use.log key development).Tells ∧
      (development = false → (use.log key development).Keeps key) ∧
      (development = true → (use.log key development).Recompiles) ∧
      ∀ (what : Lookup) (compile : CacheM κ ε Template) (c c' : Cache κ) (e : ε),
        c.find? key what = none → compile.run.run c = (.error e, c') →
        (Cache.answer key what compile).run.run c = (.error e, c') := by
  have hrests : CacheLog.Rests key development (use.logged key (.empty development) []).1.2
      (use.log key development) := use.logged_rests key ⟨.nil, trivial, rfl⟩
  refine ⟨use.logged_erases key _ _, hrests.tells, ?_, ?_, ?_⟩
  · rintro rfl
    exact hrests.keeps hrequested
  · rintro rfl
    exact hrests.recompiles
  · intro what compile c c' e hfind hcompile
    rw [Cache.run_answer, hfind]
    change Cache.conclude _ (compile.run.run c) = _
    rw [hcompile]
    rfl

/-- Two sources with one key, the second asked for while the first is compiled. -/
theorem CacheUse.log_of_collision_tells :
    let template (source : String) : Template := ⟨"page", source, []⟩
    let ofB : CacheUse Unit := .finish (.ok (template "b"))
    let ofA : CacheUse Unit :=
      .lookup (.inline "b" "page") ofB fun _ => .finish (.ok (template "a"))
    let use : CacheUse Unit :=
      .lookup (.inline "a" "page") ofA fun _ => .lookup (.inline "b" "page") ofB fun _ =>
        .finish (.error ())
    (use.log (fun _ _ => ()) false).Keeps fun _ _ => () := by
  intro template ofB ofA use
  exact (CacheUse.log_tells (fun _ _ => ()) false use (by decide)).2.2.1 rfl

end Templating
