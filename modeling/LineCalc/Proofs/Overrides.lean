import Mathlib
import LineCalc.Config.Load

/-!
# Options on top of options

A configuration that options change is written out as a table of its three fields, the options
are put into that table, and the table is judged as if it had been read from a file. So two
things have to be seen about tables. Putting in one set of options and then another is putting
in the first updated by the second (`Table.update_update`). And a table is only as good as what
`Config.set` makes of its entries: `Alike` tables, whose entries come to the same one by one,
are the same configuration or have the same complaints (`Alike.ofTable`).

What joins the two is that a configuration, written out, is alike to the table that it was read
from (`alike_of_override`). A field that was given as `"+07"`, as `7.0` or in small letters is
written out in another way, but it is read as the same.
-/

namespace LineCalc

/-! ## Updating tables -/

namespace Table

/-- The keys of a table, in its order. -/
def keys (t : Table) : List String := t.map Prod.fst

variable {t : Table} {k k' : String} {v v' : Datum}

@[simp] theorem keys_nil : keys [] = [] := rfl

@[simp] theorem keys_cons (e : String × Datum) (t : Table) : keys (e :: t) = e.1 :: keys t := rfl

theorem mem_keys_put {key : String} : key ∈ keys (put k v t) ↔ key = k ∨ key ∈ keys t := by
  induction t with
  | nil => simp [put]
  | cons e t ih =>
      rw [put]
      split
      · next heq => simp [beq_iff_eq.mp heq]
      · rw [keys_cons, List.mem_cons, ih, keys_cons, List.mem_cons]
        tauto

theorem nodup_keys_put (h : (keys t).Nodup) : (keys (put k v t)).Nodup := by
  induction t with
  | nil => simp [put]
  | cons e t ih =>
      rw [keys_cons, List.nodup_cons] at h
      rw [put]
      split
      · exact List.nodup_cons.mpr h
      · next hne =>
        have hfresh : e.1 ∉ keys (put k v t) := by
          rw [mem_keys_put, not_or]
          exact ⟨by simpa using hne, h.1⟩
        exact List.nodup_cons.mpr ⟨hfresh, ih h.2⟩

/-- Of two values for a key the second stays, and it stands where the first did. -/
theorem put_put (t : Table) : put k v (put k v' t) = put k v t := by
  induction t with
  | nil => simp [put]
  | cons e t ih =>
      by_cases heq : e.1 = k
      · simp [put, heq]
      · simp [put, heq, ih]

/-- Where a key has its place already, it does not matter what is put in first. -/
theorem put_comm (hne : k ≠ k') (hk : k ∈ keys t) :
    put k v (put k' v' t) = put k' v' (put k v t) := by
  induction t with
  | nil => cases hk
  | cons e t ih =>
      by_cases heq : e.1 = k
      · have hne' : e.1 ≠ k' := by rw [heq]; exact hne
        simp [put, heq, hne]
      · have hmem : k ∈ keys t := by
          rw [keys_cons, List.mem_cons] at hk
          exact hk.resolve_left (Ne.symm heq)
        by_cases heq' : e.1 = k'
        · simp [put, heq', Ne.symm hne]
        · simp [put, heq, heq', ih hmem]

theorem put_update {a : Table} (hk : k ∈ keys t) (ha : k ∉ keys a) :
    put k v (update t a) = update (put k v t) a := by
  induction a generalizing t with
  | nil => rfl
  | cons e a ih =>
      rw [keys_cons, List.mem_cons, not_or] at ha
      have hmem : k ∈ keys (put e.1 e.2 t) := mem_keys_put.mpr (.inr hk)
      calc put k v (update (put e.1 e.2 t) a)
          = update (put k v (put e.1 e.2 t)) a := ih hmem ha.2
        _ = update (put e.1 e.2 (put k v t)) a := by rw [put_comm ha.1 hk]

/-- To change one of the changes is to change what they made. -/
theorem update_put {a : Table} (ha : (keys a).Nodup) :
    update t (put k v a) = put k v (update t a) := by
  induction a generalizing t with
  | nil => rfl
  | cons e a ih =>
      rw [keys_cons, List.nodup_cons] at ha
      by_cases heq : e.1 = k
      -- The change that is replaced is made all the same, so that its key has a place, and then
      -- it is overwritten by the one put in last.
      · have hmem : k ∈ keys (put k e.2 t) := mem_keys_put.mpr (.inl rfl)
        calc update t (put k v (e :: a))
            = update (put k v t) a := by simp [put, heq, update]
          _ = update (put k v (put k e.2 t)) a := by rw [put_put]
          _ = put k v (update (put k e.2 t) a) := (put_update hmem (heq ▸ ha.1)).symm
          _ = put k v (update t (e :: a)) := by rw [← heq]; rfl
      · calc update t (put k v (e :: a))
            = update (put e.1 e.2 t) (put k v a) := by simp [put, heq, update]
          _ = put k v (update (put e.1 e.2 t) a) := ih ha.2

theorem nodup_keys_update (h : (keys t).Nodup) (a : Table) : (keys (update t a)).Nodup := by
  induction a generalizing t with
  | nil => exact h
  | cons e a ih => exact ih (nodup_keys_put h)

/-- A key that has its place keeps it, and new keys come last. -/
theorem keys_prefix_put (t : Table) (k : String) (v : Datum) : keys t <+: keys (put k v t) := by
  induction t with
  | nil => exact List.nil_prefix
  | cons e t ih =>
      rw [put]
      split
      · exact List.prefix_rfl
      · exact List.cons_prefix_cons.mpr ⟨rfl, ih⟩

theorem keys_prefix_update (t a : Table) : keys t <+: keys (update t a) := by
  induction a generalizing t with
  | nil => exact List.prefix_rfl
  | cons e a ih => exact (keys_prefix_put t e.1 e.2).trans (ih _)

theorem get?_put_of_ne (t : Table) (hne : k' ≠ k) : get? (put k v t) k' = get? t k' := by
  have hkey : (k' == k) = false := beq_eq_false_iff_ne.mpr hne
  induction t with
  | nil => simp [get?, put, List.lookup, hkey]
  | cons e t ih =>
      obtain ⟨key, value⟩ := e
      rw [put]
      split
      · next heq =>
        have hother : (k' == key) = false := by rw [beq_iff_eq.mp heq, hkey]
        simp [get?, List.lookup_cons, hother]
      · rw [get?, List.lookup_cons, get?, List.lookup_cons]
        split
        · rfl
        · exact ih

/-- What is not changed stays. -/
theorem get?_update_of_not_mem (t : Table) {a : Table} (h : k ∉ keys a) :
    get? (update t a) k = get? t k := by
  induction a generalizing t with
  | nil => rfl
  | cons e a ih =>
      rw [keys_cons, List.mem_cons, not_or] at h
      exact (ih _ h.2).trans (get?_put_of_ne t h.1)

/-- **Updating twice is updating once**, by the first changes updated by the second. -/
theorem update_update {a : Table} (ha : (keys a).Nodup) (b : Table) :
    update t (update a b) = update (update t a) b := by
  induction b generalizing a with
  | nil => rfl
  | cons e b ih =>
      calc update t (update (put e.1 e.2 a) b)
          = update (update t (put e.1 e.2 a)) b := ih (nodup_keys_put ha)
        _ = update (put e.1 e.2 (update t a)) b := by rw [update_put ha]

end Table

namespace Config

/-! ## Tables that come to the same -/

/-- Tables with the same keys in the same places, and with values that set the same. -/
def Alike (t t' : Table) : Prop :=
  List.Forall₂ (fun e e' => e.1 = e'.1 ∧ ∀ c : Config, c.set e.1 e.2 = c.set e.1 e'.2) t t'

/-- The key of an entry, with what is wrong with the entry. -/
def judged (e : String × Datum) : String × Option Complaint := (e.1, entryComplaint? e.1 e.2)

/-- Entries are sorted by their keys alone, so they may be judged before they are sorted. -/
theorem complaints_eq (t : Table) :
    complaints t =
      ((t.map judged).mergeSort fun a b => Text.notAfter a.1 b.1).filterMap Prod.snd := by
  rw [← List.map_mergeSort (r := fun a b => Text.notAfter a.1 b.1) fun _ _ _ _ => rfl,
    List.filterMap_map]
  rfl

namespace Alike

variable {t t' : Table}

theorem refl (t : Table) : Alike t t := List.forall₂_same.mpr fun _ _ => ⟨rfl, fun _ => rfl⟩

theorem put (h : Alike t t') (k : String) (v : Datum) : Alike (t.put k v) (t'.put k v) := by
  induction h with
  | nil => exact refl [(k, v)]
  | @cons e e' t t' he ht ih =>
      rw [Table.put, Table.put, ← he.1]
      by_cases heq : (e.1 == k) = true
      · rw [if_pos heq, if_pos heq]
        exact .cons ⟨rfl, fun _ => rfl⟩ ht
      · rw [if_neg heq, if_neg heq]
        exact .cons ⟨rfl, he.2⟩ ih

theorem update (h : Alike t t') (changes : Table) :
    Alike (t.update changes) (t'.update changes) := by
  induction changes generalizing t t' with
  | nil => exact h
  | cons e changes ih => exact ih (h.put e.1 e.2)

theorem map_judged (h : Alike t t') : t.map judged = t'.map judged := by
  induction h with
  | nil => rfl
  | @cons e e' t t' he _ ih =>
      have hentry : judged e = judged e' := by
        rw [judged, judged, entryComplaint?, entryComplaint?, ← he.1, he.2]
      rw [List.map_cons, List.map_cons, hentry, ih]

theorem setAll (h : Alike t t') (c : Config) : c.setAll t = c.setAll t' := by
  induction h generalizing c with
  | nil => rfl
  | cons he _ ih =>
      rw [Config.setAll, List.foldl_cons, Config.setAll, List.foldl_cons, ← he.1, he.2]
      exact ih _

/-- Alike tables are the same configuration, or the same is wrong with them. -/
theorem ofTable (h : Alike t t') : ofTable t = ofTable t' := by
  rw [Config.ofTable, Config.ofTable, complaints_eq, complaints_eq, h.map_judged, h.setAll]

end Alike

/-! ## Fields as they are read -/

theorem exists_of_map_eq_ok {ε α β : Type} {f : α → β} {r : Except ε α} {b : β}
    (h : r.map f = .ok b) : ∃ a, r = .ok a ∧ f a = b := by
  cases r with
  | error e => cases h
  | ok a => exact ⟨a, rfl, Except.ok.inj h⟩

/-- The keys that mean something. -/
def fieldKeys : List String := ["mode", "max_depth", "log_level"]

/-- A table of the three fields. -/
def fields (mode maxDepth logLevel : Datum) : Table :=
  [("mode", mode), ("max_depth", maxDepth), ("log_level", logLevel)]

variable {c c' : Config} {k : String} {x y z : Datum} {t : Table}

theorem set_mode (c : Config) (x : Datum) :
    c.set "mode" x = (readMode x).map fun mode => { c with mode } := rfl

theorem set_maxDepth (c : Config) (x : Datum) :
    c.set "max_depth" x = (readMaxDepth x).map fun maxDepth => { c with maxDepth } := rfl

theorem set_logLevel (c : Config) (x : Datum) :
    c.set "log_level" x = (readLogLevel x).map fun logLevel => { c with logLevel } := rfl

theorem mem_fieldKeys_of_set (h : c.set k x = .ok c') : k ∈ fieldKeys := by
  unfold set at h
  split_ifs at h with hmode hdepth hlevel
  · simp [fieldKeys, hmode]
  · simp [fieldKeys, hdepth]
  · simp [fieldKeys, hlevel]

theorem entryComplaint?_eq_none_iff :
    entryComplaint? k x = none ↔ ∃ c, set {} k x = .ok c := by
  unfold entryComplaint?
  cases set {} k x with
  | ok c => simp
  | error p => simp

/--
A table is a configuration if each of its entries can be set, and it is the defaults with all set.
-/
theorem ofTable_eq_ok_iff :
    ofTable t = .ok c ↔ (∀ e ∈ t, ∃ c', set {} e.1 e.2 = .ok c') ∧ setAll {} t = c := by
  have hnone : complaints t = [] ↔ ∀ e ∈ t, ∃ c', set {} e.1 e.2 = .ok c' := by
    simp [complaints, List.filterMap_eq_nil_iff, entryComplaint?_eq_none_iff]
  rw [← hnone, ofTable]
  cases complaints t with
  | nil => simp
  | cons p ps => simp

/-- A table with each field once is judged field by field. -/
theorem ofTable_fields_eq_ok_iff :
    ofTable (fields x y z) = .ok c ↔
      readMode x = .ok c.mode ∧ readMaxDepth y = .ok c.maxDepth ∧
        readLogLevel z = .ok c.logLevel := by
  obtain ⟨mode, maxDepth, logLevel⟩ := c
  rw [ofTable_eq_ok_iff]
  simp only [fields, List.forall_mem_cons, set_mode, set_maxDepth, set_logLevel, setAll,
    List.foldl_cons, List.foldl_nil]
  cases readMode x <;> cases readMaxDepth y <;> cases readLogLevel z <;> simp [Except.map]

/-- A table with the three fields in front is nothing else, if nothing else in it is a field. -/
theorem exists_eq_fields (hnodup : t.keys.Nodup) (hfront : fieldKeys <+: t.keys)
    (hknown : ∀ k ∈ t.keys, k ∈ fieldKeys) : ∃ x y z, t = fields x y z := by
  obtain ⟨more, hmore⟩ := hfront
  have hnone : more = [] := by
    rw [List.eq_nil_iff_forall_not_mem]
    intro k hk
    rw [← hmore, List.nodup_append] at hnodup
    exact hnodup.2.2 k (hknown k (hmore ▸ List.mem_append_right _ hk)) k hk rfl
  rw [hnone, List.append_nil] at hmore
  match t, hmore with
  | [(_, x), (_, y), (_, z)], hmore =>
      obtain ⟨rfl, rfl, rfl⟩ : _ = _ ∧ _ = _ ∧ _ = _ := by simpa [fieldKeys, Table.keys] using hmore
      exact ⟨x, y, z, rfl⟩

/-! ## Valid configurations -/

/-- What holds of every configuration that can come about. -/
structure Valid (c : Config) : Prop where
  mode : c.mode.name ∈ ["i128", "f64"]
  maxDepth : ∀ n, c.maxDepth = some n → 1 ≤ n
  logLevel : c.logLevel.name ∈ ["DEBUG", "INFO", "WARNING", "ERROR", "CRITICAL"]

/-- Only the cap can be out of bounds. -/
theorem valid_iff : c.Valid ↔ ∀ n, c.maxDepth = some n → 1 ≤ n := by
  refine ⟨Valid.maxDepth, fun h => ⟨?_, h, ?_⟩⟩
  · cases c.mode <;> decide
  · cases c.logLevel <;> decide

theorem valid_default : Valid {} := valid_iff.mpr nofun

theorem one_le_of_readMaxDepth {d : Option Int} (h : readMaxDepth x = .ok d) :
    ∀ n, d = some n → 1 ≤ n := by
  unfold readMaxDepth at h
  split at h
  · cases h
    exact nofun
  · split at h
    · cases h
    · split_ifs at h with hle
      cases h
      rintro n ⟨⟩
      exact hle

theorem Valid.set (hc : c.Valid) (h : c.set k x = .ok c') : c'.Valid := by
  have hkey := mem_fieldKeys_of_set h
  simp only [fieldKeys, List.mem_cons, List.not_mem_nil, or_false] at hkey
  rw [valid_iff] at hc ⊢
  obtain rfl | rfl | rfl := hkey
  · obtain ⟨m, -, rfl⟩ := exists_of_map_eq_ok h
    exact hc
  · obtain ⟨d, hd, rfl⟩ := exists_of_map_eq_ok h
    exact one_le_of_readMaxDepth hd
  · obtain ⟨l, -, rfl⟩ := exists_of_map_eq_ok h
    exact hc

theorem Valid.setAll (hc : c.Valid) (t : Table) : (c.setAll t).Valid := by
  induction t generalizing c with
  | nil => exact hc
  | cons e t ih =>
      rw [Config.setAll, List.foldl_cons]
      split
      · next c' h => exact ih (hc.set h)
      · exact ih hc

theorem valid_of_ofTable (h : ofTable t = .ok c) : c.Valid := by
  obtain ⟨-, rfl⟩ := ofTable_eq_ok_iff.mp h
  exact valid_default.setAll t

theorem mapError_eq_ok_iff {ε ε' α : Type} {f : ε → ε'} {r : Except ε α} {a : α} :
    r.mapError f = .ok a ↔ r = .ok a := by
  cases r <;> simp [Except.mapError]

theorem ofTable_nil : ofTable [] = .ok {} := by
  rw [ofTable, complaints, List.mergeSort_nil]
  rfl

/-- The entries of a section; whatever is no table has none. -/
def sectionEntries : Option Datum → Table
  | some (.table t) => t
  | _ => []

theorem ofTable_of_ofDocument {path : String} (h : ofDocument path t = .ok c) :
    ofTable (sectionEntries (t.get? sectionName)) = .ok c := by
  unfold ofDocument at h
  split at h
  · next hsection =>
    rw [hsection, ← Except.ok.inj h]
    exact ofTable_nil
  · next value hsection =>
    rw [hsection]
    split_ifs at h with hfalsy
    · rw [← Except.ok.inj h]
      cases value with
      | table t =>
          rw [List.isEmpty_iff.mp hfalsy]
          exact ofTable_nil
      | _ => exact ofTable_nil
    · have hdatum : ofDatum value = .ok c := mapError_eq_ok_iff.mp h
      cases value with
      | table t => exact hdatum
      | _ => cases hdatum

/-- The entries that the content of a file has for the calculator. -/
def entries (content : Option ByteArray) : Table :=
  sectionEntries
    (((content.bind String.fromUTF8?).bind (Toml.read · |>.toOption)).bind
      (Table.get? · sectionName))

/-- What is loaded is the configuration of the entries. -/
theorem ofTable_entries_of_load {path : String} {content : Option ByteArray}
    (h : load path content = .ok c) : ofTable (entries content) = .ok c := by
  unfold load at h
  split at h
  · rw [← Except.ok.inj h]
    exact ofTable_nil
  · split at h
    · cases h
    · next bytes text hdecode =>
      unfold ofText at h
      split at h
      · cases h
      · cases h
      · next t hread =>
        have hdocument : ofDocument path t = .ok c := mapError_eq_ok_iff.mp h
        rw [entries, Option.bind_some, hdecode, Option.bind_some, hread]
        exact ofTable_of_ofDocument hdocument

theorem valid_of_load {path : String} {content : Option ByteArray} (h : load path content = .ok c) :
    c.Valid :=
  valid_of_ofTable (ofTable_entries_of_load h)

/-! ## A configuration written out -/

variable {c₁ : Config} {a : Table}

/-- A cap as it is written out. -/
def capDatum : Option Int → Datum
  | some n => .integer n
  | none => .null

theorem toTable_eq (c : Config) :
    c.toTable =
      fields (.text c.mode.name) (capDatum c.maxDepth) (.text c.logLevel.name) := rfl

/-- What is written out is read as what was written. -/
theorem Valid.reads (hc : c.Valid) :
    readMode (.text c.mode.name) = .ok c.mode ∧
      readMaxDepth (capDatum c.maxDepth) = .ok c.maxDepth ∧
      readLogLevel (.text c.logLevel.name) = .ok c.logLevel := by
  refine ⟨?_, ?_, ?_⟩
  · rw [readMode, Mode.ofName?_name]
  · cases hmax : c.maxDepth with
    | none => rfl
    | some n => simp [capDatum, readMaxDepth, wholeNumber, hc.maxDepth n hmax]
  · rw [readLogLevel, LogLevel.ofName?_name]

/-- A valid configuration, written out as a table, is read back. -/
theorem Valid.ofTable_toTable (hc : c.Valid) : ofTable c.toTable = .ok c := by
  rw [toTable_eq, ofTable_fields_eq_ok_iff]
  exact hc.reads

/-- Options that are taken leave a table of the three fields. -/
theorem exists_fields_of_override (h : c.override a = .ok c₁) :
    ∃ x y z, c.toTable.update a = fields x y z := by
  have hthree : c.toTable.keys.Nodup := (by decide : fieldKeys.Nodup)
  have hnodup : (c.toTable.update a).keys.Nodup := Table.nodup_keys_update hthree a
  refine exists_eq_fields hnodup (Table.keys_prefix_update c.toTable a) ?_
  -- An unknown key would have been a complaint.
  intro k hk
  obtain ⟨e, he, rfl⟩ := List.mem_map.mp hk
  obtain ⟨c', hc'⟩ := (ofTable_eq_ok_iff.mp h).1 e he
  exact mem_fieldKeys_of_set hc'

/-- **A configuration, written out, is alike to the table that it was read from.** -/
theorem alike_of_override (h : c.override a = .ok c₁) :
    Alike c₁.toTable (c.toTable.update a) := by
  obtain ⟨x, y, z, hfields⟩ := exists_fields_of_override h
  have hread : ofTable (fields x y z) = .ok c₁ := hfields ▸ h
  have hwritten := (valid_of_ofTable hread).reads
  rw [ofTable_fields_eq_ok_iff] at hread
  rw [hfields, toTable_eq]
  refine .cons ⟨rfl, fun c => ?_⟩ (.cons ⟨rfl, fun c => ?_⟩ (.cons ⟨rfl, fun c => ?_⟩ .nil))
  · rw [set_mode, set_mode, hwritten.1, hread.1]
  · rw [set_maxDepth, set_maxDepth, hwritten.2.1, hread.2.1]
  · rw [set_logLevel, set_logLevel, hwritten.2.2, hread.2.2]

/-- Options on top of options are judged like both at once. -/
theorem override_override (h : c.override a = .ok c₁) (ha : a.keys.Nodup) (b : Table) :
    c₁.override b = c.override (a.update b) := by
  rw [override, override, Table.update_update ha]
  exact ((alike_of_override h).update b).ofTable

/-- A field that options do not name stays as it was. -/
theorem unnamed_of_override (hc : c.Valid) (h : c.override a = .ok c₁) :
    ("mode" ∉ a.keys → c₁.mode = c.mode) ∧
      ("max_depth" ∉ a.keys → c₁.maxDepth = c.maxDepth) ∧
      ("log_level" ∉ a.keys → c₁.logLevel = c.logLevel) := by
  obtain ⟨x, y, z, hfields⟩ := exists_fields_of_override h
  have hread : ofTable (fields x y z) = .ok c₁ := hfields ▸ h
  have hwritten := hc.reads
  rw [ofTable_fields_eq_ok_iff] at hread
  have hget (k : String) (hk : k ∉ a.keys) : (fields x y z).get? k = c.toTable.get? k := by
    rw [← hfields, Table.get?_update_of_not_mem _ hk]
  refine ⟨fun hk => ?_, fun hk => ?_, fun hk => ?_⟩
  · obtain rfl : x = .text c.mode.name := Option.some.inj (hget "mode" hk)
    exact Except.ok.inj (hread.1.symm.trans hwritten.1)
  · obtain rfl := Option.some.inj (hget "max_depth" hk)
    exact Except.ok.inj (hread.2.1.symm.trans hwritten.2.1)
  · obtain rfl := Option.some.inj (hget "log_level" hk)
    exact Except.ok.inj (hread.2.2.symm.trans hwritten.2.2)

/-! ## Sessions of options -/

theorem afterOptions_of_ok (h : c.withOptions a = .ok c₁) : c.afterOptions a = c₁ := by
  rw [afterOptions, h]
  rfl

theorem afterOptions_of_error {e : ConfigError} (h : c.withOptions a = .error e) :
    c.afterOptions a = c := by
  rw [afterOptions, h]
  rfl

theorem Valid.afterOptions (hc : c.Valid) (a : Table) : (c.afterOptions a).Valid := by
  cases h : c.withOptions a with
  | error e => exact (afterOptions_of_error h).symm ▸ hc
  | ok c₁ =>
      rw [afterOptions_of_ok h]
      exact valid_of_ofTable (mapError_eq_ok_iff.mp h)

/-- The configurations that can come about. -/
inductive Reachable : Config → Prop where
  | default : Reachable {}
  | loaded {path : String} {content : Option ByteArray} {c : Config} :
      load path content = .ok c → Reachable c
  /-- Options that cannot be leave the configuration as it is. -/
  | options {c : Config} (changes : Table) : Reachable c → Reachable (c.afterOptions changes)

theorem Reachable.valid (h : Reachable c) : c.Valid := by
  induction h with
  | default => exact valid_default
  | loaded h => exact valid_of_load h
  | options changes _ ih => exact ih.afterOptions changes

theorem Reachable.of_mem_session (h : Reachable c) (sets : List Table) :
    ∀ step ∈ c.session sets, Reachable step.2 := by
  induction sets generalizing c with
  | nil => exact List.forall_mem_nil _
  | cons changes rest ih =>
      exact List.forall_mem_cons.mpr ⟨h.options changes, ih (h.options changes)⟩

/--
**Options keep a configuration valid, and they compose.** Whatever a configuration has come
from, and whatever options are tried on it one after another, it is valid. No options change
nothing. Options that are taken change no field that they do not name; and after them, other
options come to the same as if both had been given at once, the later ones in place of the
earlier: to the same configuration, or to the same complaints about the same fields.
-/
theorem withOptions_composes (hc : Reachable c) {a : Table} (ha : a.keys.Nodup) (b : Table) :
    c.Valid ∧
      (∀ sets : List Table, ∀ step ∈ c.session sets, step.2.Valid) ∧
      c.withOptions [] = .ok c ∧
      ∀ c₁, c.withOptions a = .ok c₁ →
        ("mode" ∉ a.keys → c₁.mode = c.mode) ∧
        ("max_depth" ∉ a.keys → c₁.maxDepth = c.maxDepth) ∧
        ("log_level" ∉ a.keys → c₁.logLevel = c.logLevel) ∧
        c₁.withOptions b = c.withOptions (a.update b) := by
  refine ⟨hc.valid, fun sets step hstep => (hc.of_mem_session sets step hstep).valid, ?_, ?_⟩
  · exact mapError_eq_ok_iff.mpr hc.valid.ofTable_toTable
  · intro c₁ h
    have hoverride : c.override a = .ok c₁ := mapError_eq_ok_iff.mp h
    obtain ⟨hmode, hdepth, hlevel⟩ := unnamed_of_override hc.valid hoverride
    refine ⟨hmode, hdepth, hlevel, ?_⟩
    rw [withOptions, withOptions, override_override hoverride ha b]

/-- A level spelled with a dotless letter and a cap spelled as a truth value. -/
theorem withOptions_composes_respelled :
    let a : Table := [("log_level", .text "ınfo"), ("max_depth", .bool true)]
    let b : Table := [("mode", .text "f64"), ("loud", .null), ("log_level", .text "Error")]
    let c₁ : Config := { maxDepth := some 1, logLevel := .info }
    a.keys.Nodup ∧ withOptions {} a = .ok c₁ ∧ c₁.withOptions b = withOptions {} (a.update b) := by
  intro a b c₁
  have ha : a.keys.Nodup := by decide
  have hupdate : Table.update (toTable {}) a =
      fields (.text "i128") (.bool true) (.text "ınfo") := rfl
  have h : withOptions {} a = .ok c₁ := by
    rw [withOptions, mapError_eq_ok_iff, override, hupdate, ofTable_fields_eq_ok_iff]
    exact ⟨by decide, by decide, by decide⟩
  obtain ⟨-, -, -, hcompose⟩ := withOptions_composes .default ha b
  obtain ⟨-, -, -, hboth⟩ := hcompose c₁ h
  exact ⟨ha, h, hboth⟩

end Config

end LineCalc
