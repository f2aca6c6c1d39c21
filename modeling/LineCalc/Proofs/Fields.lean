import Mathlib
import LineCalc.Proofs.Overrides
import LineCalc.Proofs.WholeDouble

/-!
# A section, entry by entry

Whether the section of a configuration file is a configuration is a question about its entries
alone. Which values a field can have is said by `NamesMode`, `SetsCap` and `NamesLevel`, without
the order in which a value is tried as one thing or another, and an entry is `Acceptable` if its
key is that of a field and its value one of these. A section is a configuration exactly if all
of its entries are acceptable, and then each field is what its own entry says or, without one,
its default (`IsField.settles`).

A section that is none is reported entry by entry too. What is reported on a key depends on
whether it has an entry and on the value there, and on nothing else (`filter_complaints`): it
is what is reported if this is the only entry. The reports come in the order of the keys,
wherever they stand in the section, because there is one way to sort different keys
(`mergeSort_perm_eq`).
-/

namespace LineCalc

/-! ## The order of texts -/

namespace Text

/-- Characters are ordered like lists of them. -/
theorem charsNotAfter_iff {a b : List Char} : charsNotAfter a b = true ↔ ¬ b < a := by
  induction a generalizing b with
  | nil => simp [charsNotAfter]
  | cons c a ih =>
      cases b with
      | nil => simp [charsNotAfter]
      | cons d b =>
          have hchar : c.toNat < d.toNat ↔ c < d := Iff.rfl
          simp only [charsNotAfter, Bool.or_eq_true, Bool.and_eq_true, decide_eq_true_eq,
            beq_iff_eq, List.cons_lt_cons_iff, ih, Char.toNat_inj, hchar]
          rcases lt_trichotomy c d with h | rfl | h
          · simp [h, h.not_gt, h.ne']
          · simp
          · simp [h, h.not_gt, h.ne']

/-- The order of texts is the linear one that the library has. -/
theorem notAfter_iff {s t : String} : notAfter s t = true ↔ s ≤ t := by
  rw [notAfter, charsNotAfter_iff, ← not_lt]
  exact Iff.rfl

end Text

namespace Table

variable {t t' : Table} {k : String} {x : Datum}

/-- In a table with one value for each key, a key has the value of its entry. -/
theorem get?_eq_some_iff (ht : t.keys.Nodup) : t.get? k = some x ↔ (k, x) ∈ t := by
  induction t with
  | nil => simp [get?]
  | cons e t ih =>
      obtain ⟨key, value⟩ := e
      rw [keys_cons, List.nodup_cons] at ht
      by_cases hkey : k = key
      · subst hkey
        have hother : (k, x) ∉ t := fun h => ht.1 (List.mem_map.mpr ⟨_, h, rfl⟩)
        simp [get?, hother, eq_comm]
      · have hbeq : (k == key) = false := beq_eq_false_iff_ne.mpr hkey
        have hget : get? ((key, value) :: t) k = get? t k := by
          rw [get?, List.lookup_cons, hbeq]
          rfl
        simpa [hget, hkey] using ih ht.2

theorem get?_eq_none_iff : t.get? k = none ↔ k ∉ t.keys := by
  rw [get?, List.lookup_eq_none_iff, keys, List.mem_map]
  constructor
  · rintro h ⟨e, he, rfl⟩
    simpa using h e he
  · intro h e he
    exact bne_iff_ne.mpr fun heq => h ⟨e, he, heq.symm⟩

/-- It does not matter in which order entries stand. -/
theorem get?_perm (h : t'.Perm t) (ht : t.keys.Nodup) (k : String) : t'.get? k = t.get? k := by
  have ht' : t'.keys.Nodup := (h.map Prod.fst).nodup_iff.mpr ht
  refine Option.ext fun x => ?_
  rw [get?_eq_some_iff ht, get?_eq_some_iff ht', h.mem_iff]

/-- There is one way to sort entries with different keys. -/
theorem mergeSort_perm_eq (h : t'.Perm t) (ht : t.keys.Nodup) :
    (t'.mergeSort fun a b => Text.notAfter a.1 b.1) =
      t.mergeSort fun a b => Text.notAfter a.1 b.1 := by
  have hsorted (s : Table) :
      (s.mergeSort fun a b => Text.notAfter a.1 b.1).Pairwise
        fun a b => Text.notAfter a.1 b.1 = true := by
    refine List.pairwise_mergeSort (fun a b c hab hbc => ?_) (fun a b => ?_) s
    · rw [Text.notAfter_iff] at hab hbc ⊢
      exact hab.trans hbc
    · rw [Bool.or_eq_true, Text.notAfter_iff, Text.notAfter_iff]
      exact le_total a.1 b.1
  refine List.Perm.eq_of_pairwise (fun a b ha hb hab hba => ?_) (hsorted t') (hsorted t)
    (((List.mergeSort_perm t' _).trans h).trans (List.mergeSort_perm t _).symm)
  rw [Text.notAfter_iff] at hab hba
  rw [List.mem_mergeSort] at ha hb
  exact List.inj_on_of_nodup_map ht (h.mem_iff.mp ha) hb (hab.antisymm hba)

/--
What a table makes of a field: what the value of its key means, or what it is without one.
-/
def Settles {α : Type} (t : Table) (key : String) (means : Datum → α → Prop) (default value : α) :
    Prop :=
  match t.get? key with
  | some x => means x value
  | none => value = default

end Table

namespace Config

/-! ## What each field can be -/

/-- The values that name a mode. -/
inductive NamesMode : Datum → Mode → Prop where
  | integer : NamesMode (.text "i128") .integer
  | floating : NamesMode (.text "f64") .floating

/-- The values that are taken for a whole number. -/
inductive MeansWhole : Datum → Int → Prop where
  | integer (n : Int) : MeansWhole (.integer n) n
  | yes : MeansWhole (.bool true) 1
  | no : MeansWhole (.bool false) 0
  /-- A double without a fraction, of a magnitude below `2 ^ 63`. -/
  | real {negative : Bool} {n m : Nat} {h : Double.Representable n} :
      n = m * Double.unitsPerOne → m < 2 ^ 63 →
      MeansWhole (.real (.finite negative n h)) (Double.signedUnits negative m)
  | text {s : String} {n : Int} : WholeNumber.ofText s = .ok n → MeansWhole (.text s) n

/-- The values that set a cap, or that there is none. -/
inductive SetsCap : Datum → Option Int → Prop where
  | none : SetsCap .null none
  | some {x : Datum} {n : Int} : MeansWhole x n → 1 ≤ n → SetsCap x (some n)

/-- The values that name a level, in capital or small letters. -/
inductive NamesLevel : Datum → LogLevel → Prop where
  | text {s : String} {l : LogLevel} :
      s.toList.map LogLevel.capital = l.name.toList → NamesLevel (.text s) l

/-- An entry that can be, whatever the others are. -/
@[mk_iff]
inductive Acceptable : String → Datum → Prop where
  | mode {x : Datum} {m : Mode} : NamesMode x m → Acceptable "mode" x
  | maxDepth {x : Datum} {d : Option Int} : SetsCap x d → Acceptable "max_depth" x
  | logLevel {x : Datum} {l : LogLevel} : NamesLevel x l → Acceptable "log_level" x

variable {x : Datum} {k key : String} {c c' : Config} {t t' : Table} {p : Complaint}

theorem readMode_eq_ok_iff {m : Mode} : readMode x = .ok m ↔ NamesMode x m := by
  constructor
  · intro h
    unfold readMode at h
    split at h
    · next s =>
      split at h
      · next m' hm =>
        cases h
        have hname : m.name = s := by simpa using List.find?_some hm
        subst hname
        cases m
        · exact .integer
        · exact .floating
      · cases h
    · cases h
  · rintro (_ | _) <;> decide

theorem wholeReal_eq_ok_iff {d : Double} {n : Int} :
    wholeReal d = .ok n ↔ MeansWhole (.real d) n := by
  have hlimit : realLimit = 2 ^ 63 := by decide
  constructor
  · intro h
    cases d with
    | finite negative m hm =>
        simp only [wholeReal] at h
        split_ifs at h with hfraction hlarge
        cases h
        have hwhole : m = m / Double.unitsPerOne * Double.unitsPerOne :=
          (Nat.div_mul_cancel (Nat.dvd_of_mod_eq_zero (not_not.mp hfraction))).symm
        exact .real hwhole (hlimit ▸ Nat.not_le.mp hlarge)
    | _ => cases h
  · rintro (_ | _ | _ | ⟨hwhole, hsmall⟩ | _)
    next negative units m hm =>
    have hmod : units % Double.unitsPerOne = 0 := by rw [hwhole, Nat.mul_mod_left]
    have hdiv : units / Double.unitsPerOne = m := by
      rw [hwhole, Nat.mul_div_cancel m Double.unitsPerOne_pos]
    rw [wholeReal, if_neg (not_not.mpr hmod), hdiv, hlimit, if_neg hsmall.not_ge]

theorem wholeText_eq_ok_iff {s : String} {n : Int} :
    wholeText s = .ok n ↔ MeansWhole (.text s) n := by
  constructor
  · intro h
    unfold wholeText at h
    split at h
    · next m hm => cases h; exact .text hm
    · cases h
    · cases h
  · rintro (_ | _ | _ | _ | h)
    rw [wholeText, h]

theorem wholeNumber_eq_ok_iff {n : Int} : wholeNumber x = .ok n ↔ MeansWhole x n := by
  cases x with
  | integer m =>
      refine ⟨fun h => ?_, fun h => ?_⟩
      · cases h; exact .integer _
      · cases h; rfl
  | bool b =>
      refine ⟨fun h => ?_, fun h => ?_⟩
      · cases b
        · cases h; exact .no
        · cases h; exact .yes
      · cases h <;> rfl
  | real d => exact wholeReal_eq_ok_iff
  | text s => exact wholeText_eq_ok_iff
  | null | moment m | list xs | table t => exact ⟨nofun, nofun⟩

theorem readMaxDepth_eq_ok_iff {d : Option Int} : readMaxDepth x = .ok d ↔ SetsCap x d := by
  constructor
  · intro h
    unfold readMaxDepth at h
    split at h
    · cases h
      exact .none
    · split at h
      · cases h
      · next n hn =>
        split_ifs at h with hle
        cases h
        exact .some (wholeNumber_eq_ok_iff.mp hn) hle
  · rintro (_ | ⟨hn, hle⟩)
    · rfl
    · next n =>
      have hwhole := wholeNumber_eq_ok_iff.mpr hn
      unfold readMaxDepth
      split
      · cases hn
      · rw [hwhole]
        exact if_pos hle

theorem ofName?_eq_some_iff {s : String} {l : LogLevel} :
    LogLevel.ofName? s = some l ↔ s.toList.map LogLevel.capital = l.name.toList := by
  constructor
  · intro h
    have hname : (l.name.toList == s.toList.map LogLevel.capital) = true := by
      simpa only using List.find?_some h
    exact (beq_iff_eq.mp hname).symm
  · intro h
    rw [← LogLevel.ofName?_name l, LogLevel.ofName?, LogLevel.ofName?, h]
    cases l <;> rfl

theorem readLogLevel_eq_ok_iff {l : LogLevel} : readLogLevel x = .ok l ↔ NamesLevel x l := by
  constructor
  · intro h
    unfold readLogLevel at h
    split at h
    · next s =>
      split at h
      · next l' hl =>
        cases h
        exact .text (ofName?_eq_some_iff.mp hl)
      · cases h
    · cases h
  · rintro ⟨h⟩
    rw [readLogLevel, ofName?_eq_some_iff.mpr h]

/-- All that putting an entry into a configuration can come to. -/
theorem set_cases (h : c.set k x = .ok c') :
    (k = "mode" ∧ ∃ m, readMode x = .ok m ∧ c' = { c with mode := m }) ∨
      (k = "max_depth" ∧ ∃ d, readMaxDepth x = .ok d ∧ c' = { c with maxDepth := d }) ∨
      (k = "log_level" ∧ ∃ l, readLogLevel x = .ok l ∧ c' = { c with logLevel := l }) := by
  have hkey := mem_fieldKeys_of_set h
  simp only [fieldKeys, List.mem_cons, List.not_mem_nil, or_false] at hkey
  obtain rfl | rfl | rfl := hkey
  · obtain ⟨m, hm, rfl⟩ := exists_of_map_eq_ok h
    exact .inl ⟨rfl, m, hm, rfl⟩
  · obtain ⟨d, hd, rfl⟩ := exists_of_map_eq_ok h
    exact .inr (.inl ⟨rfl, d, hd, rfl⟩)
  · obtain ⟨l, hl, rfl⟩ := exists_of_map_eq_ok h
    exact .inr (.inr ⟨rfl, l, hl, rfl⟩)

/-- Whether an entry can be put into a configuration does not depend on what that is. -/
theorem exists_set_iff (c : Config) : (∃ c', c.set k x = .ok c') ↔ Acceptable k x := by
  constructor
  · rintro ⟨c', h⟩
    obtain ⟨rfl, m, hm, -⟩ | ⟨rfl, d, hd, -⟩ | ⟨rfl, l, hl, -⟩ := set_cases h
    · exact .mode (readMode_eq_ok_iff.mp hm)
    · exact .maxDepth (readMaxDepth_eq_ok_iff.mp hd)
    · exact .logLevel (readLogLevel_eq_ok_iff.mp hl)
  · rintro (hm | hd | hl)
    · exact ⟨_, by rw [set_mode, readMode_eq_ok_iff.mpr hm]; rfl⟩
    · exact ⟨_, by rw [set_maxDepth, readMaxDepth_eq_ok_iff.mpr hd]; rfl⟩
    · exact ⟨_, by rw [set_logLevel, readLogLevel_eq_ok_iff.mpr hl]; rfl⟩

/-! ## Sections that are configurations -/

theorem exists_ofTable_iff_forall_mem :
    (∃ c, ofTable t = .ok c) ↔ ∀ e ∈ t, Acceptable e.1 e.2 := by
  simp [ofTable_eq_ok_iff, exists_set_iff]

theorem exists_ofTable_iff (ht : t.keys.Nodup) :
    (∃ c, ofTable t = .ok c) ↔ ∀ k x, t.get? k = some x → Acceptable k x := by
  simp [exists_ofTable_iff_forall_mem, Table.get?_eq_some_iff ht]

theorem exists_ofTable_singleton_iff : (∃ c, ofTable [(k, x)] = .ok c) ↔ Acceptable k x := by
  simp [exists_ofTable_iff_forall_mem]

/-- A part of a configuration that is read from the entry of one key, and no other. -/
structure IsField {α : Type} (key : String) (get : Config → α) (read : Datum → Except Problem α) :
    Prop where
  read_of_set {c c' : Config} {x : Datum} : c.set key x = .ok c' → read x = .ok (get c')
  get_set_of_ne {c c' : Config} {k : String} {x : Datum} :
    k ≠ key → c.set k x = .ok c' → get c' = get c

theorem isField_mode : IsField "mode" mode readMode where
  read_of_set h := by
    obtain ⟨m, hm, rfl⟩ := exists_of_map_eq_ok h
    exact hm
  get_set_of_ne hne h := by
    obtain ⟨rfl, -⟩ | ⟨-, _, -, rfl⟩ | ⟨-, _, -, rfl⟩ := set_cases h
    · exact absurd rfl hne
    · rfl
    · rfl

theorem isField_maxDepth : IsField "max_depth" maxDepth readMaxDepth where
  read_of_set h := by
    obtain ⟨d, hd, rfl⟩ := exists_of_map_eq_ok h
    exact hd
  get_set_of_ne hne h := by
    obtain ⟨-, _, -, rfl⟩ | ⟨rfl, -⟩ | ⟨-, _, -, rfl⟩ := set_cases h
    · rfl
    · exact absurd rfl hne
    · rfl

theorem isField_logLevel : IsField "log_level" logLevel readLogLevel where
  read_of_set h := by
    obtain ⟨l, hl, rfl⟩ := exists_of_map_eq_ok h
    exact hl
  get_set_of_ne hne h := by
    obtain ⟨-, _, -, rfl⟩ | ⟨-, _, -, rfl⟩ | ⟨rfl, -⟩ := set_cases h
    · rfl
    · rfl
    · exact absurd rfl hne

namespace IsField

variable {α : Type} {get : Config → α} {read : Datum → Except Problem α}

/-- Entries of other keys leave a field as it is, those that cannot be included. -/
theorem get_setAll_of_not_mem (hf : IsField key get read) (hkey : key ∉ t.keys) (c : Config) :
    get (c.setAll t) = get c := by
  induction t generalizing c with
  | nil => rfl
  | cons e t ih =>
      rw [Table.keys_cons, List.mem_cons, not_or] at hkey
      rw [setAll, List.foldl_cons]
      split
      · next c' h => exact (ih hkey.2 c').trans (hf.get_set_of_ne (Ne.symm hkey.1) h)
      · exact ih hkey.2 c

theorem read_setAll (hf : IsField key get read) (ht : t.keys.Nodup) (hmem : (key, x) ∈ t)
    (hx : Acceptable key x) (c : Config) : read x = .ok (get (c.setAll t)) := by
  induction t generalizing c with
  | nil => cases hmem
  | cons e t ih =>
      rw [Table.keys_cons, List.nodup_cons] at ht
      rw [setAll, List.foldl_cons]
      obtain rfl | hmem := List.mem_cons.mp hmem
      -- Nothing that comes after the entry of the key can change the field again.
      · obtain ⟨c', h⟩ := (exists_set_iff c).mpr hx
        have hlater : get (c'.setAll t) = get c' := hf.get_setAll_of_not_mem ht.1 c'
        rw [h, ← setAll, hlater]
        exact hf.read_of_set h
      · exact ih ht.2 hmem _

/-- A field is what its own entry says, whatever the others are, or its default. -/
theorem settles (hf : IsField key get read) (ht : t.keys.Nodup) (h : ofTable t = .ok c) :
    t.Settles key (fun x v => read x = .ok v) (get {}) (get c) := by
  obtain ⟨hall, rfl⟩ := ofTable_eq_ok_iff.mp h
  unfold Table.Settles
  split
  · next x hx =>
    rw [Table.get?_eq_some_iff ht] at hx
    exact hf.read_setAll ht hx ((exists_set_iff {}).mp (hall _ hx)) {}
  · next hnone => exact hf.get_setAll_of_not_mem (Table.get?_eq_none_iff.mp hnone) {}

theorem eq_of_get? (hf : IsField key get read) (ht : t.keys.Nodup) (ht' : t'.keys.Nodup)
    (h : ofTable t = .ok c) (h' : ofTable t' = .ok c') (hget : t'.get? key = t.get? key) :
    get c' = get c := by
  have hsettles := hf.settles ht h
  have hsettles' := hf.settles ht' h'
  unfold Table.Settles at hsettles hsettles'
  rw [hget] at hsettles'
  split at hsettles
  · next x hx =>
    rw [hx] at hsettles'
    exact Except.ok.inj (hsettles'.symm.trans hsettles)
  · next hnone =>
    rw [hnone] at hsettles'
    exact hsettles'.trans hsettles.symm

end IsField

/-! ## What is reported -/

/-- What is reported on a key: the complaints whose path is that key. -/
def reportsOn (k : String) (t : Table) : List Complaint :=
  match ofTable t with
  | .ok _ => []
  | .error cs => cs.filter (·.path = [k])

theorem complaints_of_error {cs : List Complaint} (h : ofTable t = .error cs) :
    cs = complaints t ∧ cs ≠ [] := by
  unfold ofTable at h
  split at h
  · cases h
  · next hne => cases h; exact ⟨rfl, hne⟩

theorem reportsOn_eq (k : String) (t : Table) :
    reportsOn k t = (complaints t).filter (·.path = [k]) := by
  rw [reportsOn, ofTable]
  cases complaints t <;> rfl

theorem path_of_entryComplaint? (h : entryComplaint? k x = some p) : p.path = [k] := by
  unfold entryComplaint? at h
  split at h
  · cases h
  · cases h; rfl

theorem exists_entryComplaint?_iff : (∃ p, entryComplaint? k x = some p) ↔ ¬ Acceptable k x := by
  rw [← exists_set_iff {}, ← entryComplaint?_eq_none_iff, ← Option.isSome_iff_exists,
    Option.isSome_iff_ne_none]

/-- What is wrong with an entry is all that is reported if there is no other. -/
theorem ofTable_singleton (h : entryComplaint? k x = some p) : ofTable [(k, x)] = .error [p] := by
  have hcomplaints : complaints [(k, x)] = [p] := by
    simp [complaints, h]
  rw [ofTable, hcomplaints]

theorem mem_complaints (ht : t.keys.Nodup) :
    p ∈ complaints t ↔ ∃ k x, t.get? k = some x ∧ entryComplaint? k x = some p := by
  simp [complaints, Table.get?_eq_some_iff ht]

/-- No two complaints are about the same entry. -/
theorem nodup_paths (ht : t.keys.Nodup) : ((complaints t).map Complaint.path).Nodup := by
  have hperm := List.mergeSort_perm t fun a b => Text.notAfter a.1 b.1
  have hkeys := (hperm.map Prod.fst).nodup_iff.mpr ht
  rw [List.Nodup, List.pairwise_map] at hkeys
  rw [List.Nodup, List.pairwise_map, complaints, List.pairwise_filterMap]
  refine hkeys.imp fun {a b} hab p hp q hq hpath => hab ?_
  rw [path_of_entryComplaint? hp, path_of_entryComplaint? hq] at hpath
  exact List.singleton_inj.mp hpath

/-- What is reported on a key is what is wrong with its entry, if it has one. -/
theorem filter_entryComplaints (ht : t.keys.Nodup) (k : String) :
    (t.filterMap fun e => entryComplaint? e.1 e.2).filter (·.path = [k]) =
      ((t.get? k).bind (entryComplaint? k)).toList := by
  induction t with
  | nil => rfl
  | cons e t ih =>
      obtain ⟨key, value⟩ := e
      rw [Table.keys_cons, List.nodup_cons] at ht
      have hrest := ih ht.2
      by_cases hkey : k = key
      · subst hkey
        rw [Table.get?_eq_none_iff.mpr ht.1] at hrest
        have hget : Table.get? ((k, value) :: t) k = some value := by
          simp [Table.get?]
        rw [hget, List.filterMap_cons]
        cases hentry : entryComplaint? k value with
        | none => simpa [hentry] using hrest
        | some p => simpa [hentry, path_of_entryComplaint? hentry] using hrest
      · have hbeq : (k == key) = false := beq_eq_false_iff_ne.mpr hkey
        have hget : Table.get? ((key, value) :: t) k = Table.get? t k := by
          rw [Table.get?, List.lookup_cons, hbeq]
          rfl
        rw [hget, List.filterMap_cons, ← hrest]
        cases hentry : entryComplaint? key value with
        | none => rfl
        | some p =>
            have hpath : p.path ≠ [k] := by
              rw [path_of_entryComplaint? hentry]
              simpa using Ne.symm hkey
            simp [hpath]

theorem filter_complaints (ht : t.keys.Nodup) (k : String) :
    (complaints t).filter (·.path = [k]) = ((t.get? k).bind (entryComplaint? k)).toList := by
  have hperm := List.mergeSort_perm t fun a b => Text.notAfter a.1 b.1
  have hkeys := (hperm.map Prod.fst).nodup_iff.mpr ht
  rw [← Table.get?_perm hperm ht k]
  exact filter_entryComplaints hkeys k

/-- It does not matter in which order the entries of a section stand. -/
theorem ofTable_perm (h : t'.Perm t) (ht : t.keys.Nodup) : ofTable t' = ofTable t := by
  have ht' : t'.keys.Nodup := (h.map Prod.fst).nodup_iff.mpr ht
  have hget := Table.get?_perm h ht
  cases hok : ofTable t with
  | error cs =>
      obtain ⟨rfl, hne⟩ := complaints_of_error hok
      have hsame : complaints t' = complaints t := by
        rw [complaints, complaints, Table.mergeSort_perm_eq h ht]
      rw [ofTable, hsame]
      split
      · next hnil => exact absurd hnil hne
      · rfl
  | ok c =>
      have hall := (exists_ofTable_iff ht).mp ⟨c, hok⟩
      obtain ⟨c', hok'⟩ := (exists_ofTable_iff ht').mpr fun k x hx => hall k x (hget k ▸ hx)
      have hmode := isField_mode.eq_of_get? ht ht' hok hok' (hget _)
      have hdepth := isField_maxDepth.eq_of_get? ht ht' hok hok' (hget _)
      have hlevel := isField_logLevel.eq_of_get? ht ht' hok hok' (hget _)
      have hsame : c' = c := by
        cases c
        cases c'
        simp_all
      rw [hok', hsame]

theorem ofDocument_of_section {path : String} {doc : Table}
    (h : doc.get? sectionName = some (.table t)) :
    ofDocument path doc = (ofTable t).mapError (.invalid path) := by
  rw [ofDocument, h]
  cases t with
  | nil => rw [ofTable_nil]; rfl
  | cons e t => rfl

/--
**A section is judged entry by entry.** It is a configuration if and only if each of its keys is
that of a field and has a value that is acceptable there on its own; then each field is what its
value means, or its default if it is not given. Otherwise there are complaints, each at another
key: at those that mean nothing and at those whose value is not acceptable, and each complaint
is the one that a section of this entry alone gets. So the order of the entries does not
matter, and what is reported on a key is the same in all sections where it has the same value,
or has none.
-/
theorem ofTable_fieldwise (ht : t.keys.Nodup) :
    (∀ (path : String) (doc : Table), doc.get? sectionName = some (.table t) →
        ofDocument path doc = (ofTable t).mapError (.invalid path)) ∧
      ((∃ c, ofTable t = .ok c) ↔ ∀ k x, t.get? k = some x → Acceptable k x) ∧
      (∀ k x, (∃ c, ofTable [(k, x)] = .ok c) ↔ Acceptable k x) ∧
      (∀ c, ofTable t = .ok c →
        t.Settles "mode" NamesMode .integer c.mode ∧
        t.Settles "max_depth" SetsCap none c.maxDepth ∧
        t.Settles "log_level" NamesLevel .warning c.logLevel) ∧
      (∀ cs, ofTable t = .error cs →
        cs ≠ [] ∧ (cs.map Complaint.path).Nodup ∧
        (∀ path, path ∈ cs.map Complaint.path ↔
          ∃ k x, path = [k] ∧ t.get? k = some x ∧ ¬ Acceptable k x) ∧
        ∀ p ∈ cs, ∃ k x, p.path = [k] ∧ t.get? k = some x ∧ ofTable [(k, x)] = .error [p]) ∧
      (∀ t' : Table, t'.Perm t → ofTable t' = ofTable t) ∧
      ∀ (t' : Table) (k : String), t'.keys.Nodup → t'.get? k = t.get? k →
        reportsOn k t' = reportsOn k t := by
  refine ⟨fun path doc => ofDocument_of_section, exists_ofTable_iff ht,
    fun k x => exists_ofTable_singleton_iff, fun c h => ⟨?_, ?_, ?_⟩, fun cs h => ?_,
    fun t' h => ofTable_perm h ht, fun t' k ht' hget => ?_⟩
  · simpa only [readMode_eq_ok_iff] using isField_mode.settles ht h
  · simpa only [readMaxDepth_eq_ok_iff] using isField_maxDepth.settles ht h
  · simpa only [readLogLevel_eq_ok_iff] using isField_logLevel.settles ht h
  · obtain ⟨rfl, hne⟩ := complaints_of_error h
    refine ⟨hne, nodup_paths ht, fun path => ?_, fun p hp => ?_⟩
    · simp only [List.mem_map, mem_complaints ht]
      constructor
      · rintro ⟨p, ⟨k, x, hx, hp⟩, rfl⟩
        exact ⟨k, x, path_of_entryComplaint? hp, hx, exists_entryComplaint?_iff.mp ⟨p, hp⟩⟩
      · rintro ⟨k, x, rfl, hx, hbad⟩
        obtain ⟨p, hp⟩ := exists_entryComplaint?_iff.mpr hbad
        exact ⟨p, ⟨k, x, hx, hp⟩, path_of_entryComplaint? hp⟩
    · obtain ⟨k, x, hx, hp⟩ := (mem_complaints ht).mp hp
      exact ⟨k, x, path_of_entryComplaint? hp, hx, ofTable_singleton hp⟩
  · rw [reportsOn_eq, reportsOn_eq, filter_complaints ht, filter_complaints ht', hget]

/-- An unknown key and a cap of zero, around a mode that can be. -/
theorem ofTable_fieldwise_two_complaints :
    let t : Table := [("loud", .bool true), ("mode", .text "f64"), ("max_depth", .integer 0)]
    t.keys.Nodup ∧ ∃ cs, ofTable t = .error cs ∧
      ["loud"] ∈ cs.map Complaint.path ∧ ["max_depth"] ∈ cs.map Complaint.path ∧
        ["mode"] ∉ cs.map Complaint.path := by
  intro t
  have ht : t.keys.Nodup := by decide
  obtain ⟨-, hok, -, -, herror, -, -⟩ := ofTable_fieldwise ht
  have hloud : ¬ Acceptable "loud" (.bool true) := by simp [acceptable_iff]
  have hdepth : ¬ Acceptable "max_depth" (.integer 0) := by
    simp only [acceptable_iff, String.reduceEq, and_false, exists_false, false_or, or_false,
      and_true, not_exists]
    rintro _ (_ | ⟨⟨⟩, hle⟩)
    exact absurd hle (by decide)
  refine ⟨ht, ?_⟩
  cases h : ofTable t with
  | ok c => exact absurd (hok.mp ⟨c, h⟩ "loud" (.bool true) rfl) hloud
  | error cs =>
      obtain ⟨-, -, hpaths, -⟩ := herror cs h
      refine ⟨cs, rfl, (hpaths _).mpr ⟨"loud", _, rfl, rfl, hloud⟩,
        (hpaths _).mpr ⟨"max_depth", _, rfl, rfl, hdepth⟩, fun hmem => ?_⟩
      obtain ⟨k, x, hk, hx, hbad⟩ := (hpaths _).mp hmem
      obtain rfl := List.singleton_inj.mp hk
      obtain rfl := Option.some.inj hx
      exact hbad (.mode .floating)

end Config

end LineCalc
