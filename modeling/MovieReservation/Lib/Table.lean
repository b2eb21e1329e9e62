import Mathlib.Data.List.Nodup
import Mathlib.Data.List.Basic

/-! Relational tables with a serial primary key. A table carries the proof that
its keys are distinct and were all drawn from its serial, so a lookup by key has
one answer and a key is never drawn twice. Unique indexes (partial ones too) and
foreign keys are predicates on tables, with one rule for each kind of write. -/

namespace MovieReservation.Lib

universe u v

/-- The primary key of a row. -/
class Row (ρ : Type u) where
  id : ρ → ℕ

structure Table (ρ : Type u) [Row ρ] where
  rows : List ρ
  serial : ℕ
  nodup : (rows.map Row.id).Nodup
  fresh : ∀ r ∈ rows, Row.id r < serial

namespace Table

variable {ρ : Type u} [Row ρ] {υ : Type u} [Row υ] {κ : Type v}

instance [DecidableEq ρ] : DecidableEq (Table ρ) := fun t u =>
  decidable_of_iff (t.rows = u.rows ∧ t.serial = u.serial)
    ⟨fun h => by cases t; cases u; simp_all, fun h => h ▸ ⟨rfl, rfl⟩⟩

theorem eq_of_rows {t u : Table ρ} (hr : t.rows = u.rows) (hs : t.serial = u.serial) : t = u := by
  cases t
  cases u
  simp_all

def empty : Table ρ := ⟨[], 1, List.nodup_nil, by simp⟩

/-! ### Reads -/

def get (t : Table ρ) (i : ℕ) : Option ρ := t.rows.find? (fun r => Row.id r = i)

theorem eq_of_id {t : Table ρ} {r s : ρ} (hr : r ∈ t.rows) (hs : s ∈ t.rows)
    (h : Row.id r = Row.id s) : r = s :=
  List.inj_on_of_nodup_map t.nodup hr hs h

theorem get_eq_some {t : Table ρ} {i : ℕ} {r : ρ} :
    t.get i = some r ↔ r ∈ t.rows ∧ Row.id r = i := by
  constructor
  · intro h
    exact ⟨List.mem_of_find?_eq_some h, by simpa using List.find?_some h⟩
  · rintro ⟨hr, rfl⟩
    cases h : t.get (Row.id r) with
    | none =>
      have := List.find?_eq_none.mp h r hr
      simp at this
    | some s =>
      have hs := List.mem_of_find?_eq_some h
      have hi : Row.id s = Row.id r := by simpa using List.find?_some h
      rw [eq_of_id hs hr hi]

theorem get_eq_none {t : Table ρ} {i : ℕ} : t.get i = none ↔ ∀ r ∈ t.rows, Row.id r ≠ i := by
  simp [get, List.find?_eq_none]

theorem get_of_mem {t : Table ρ} {r : ρ} (hr : r ∈ t.rows) : t.get (Row.id r) = some r :=
  get_eq_some.mpr ⟨hr, rfl⟩

theorem mem_of_get {t : Table ρ} {i : ℕ} {r : ρ} (h : t.get i = some r) : r ∈ t.rows :=
  (get_eq_some.mp h).1

theorem id_of_get {t : Table ρ} {i : ℕ} {r : ρ} (h : t.get i = some r) : Row.id r = i :=
  (get_eq_some.mp h).2

theorem lt_serial_of_get {t : Table ρ} {i : ℕ} {r : ρ} (h : t.get i = some r) : i < t.serial :=
  id_of_get h ▸ t.fresh r (mem_of_get h)

/-! ### Writes -/

/-- Append a row under the next key of the serial. -/
def insert (t : Table ρ) (row : ℕ → ρ) (h : ∀ i, Row.id (row i) = i) : Table ρ where
  rows := t.rows ++ [row t.serial]
  serial := t.serial + 1
  nodup := by
    simp only [List.map_append, List.map_cons, List.map_nil, h]
    refine List.Nodup.append t.nodup (List.nodup_singleton _) ?_
    intro i hi hi'
    obtain ⟨r, hr, rfl⟩ := List.mem_map.mp hi
    have := t.fresh r hr
    simp only [List.mem_singleton] at hi'
    omega
  fresh := by
    intro r hr
    rcases List.mem_append.mp hr with hr | hr
    · exact Nat.lt_succ_of_lt (t.fresh r hr)
    · rw [List.mem_singleton.mp hr, h]; exact Nat.lt_succ_self _

/-- Rewrite the rows in place; a rewrite never touches the key. -/
def update (t : Table ρ) (f : ρ → ρ) (h : ∀ r, Row.id (f r) = Row.id r) : Table ρ where
  rows := t.rows.map f
  serial := t.serial
  nodup := by
    have : (t.rows.map f).map Row.id = t.rows.map Row.id := by simp [Function.comp_def, h]
    rw [this]; exact t.nodup
  fresh := by
    intro r hr
    obtain ⟨s, hs, rfl⟩ := List.mem_map.mp hr
    rw [h]; exact t.fresh s hs

/-- The rewrite of the one row with key `i`. -/
def atKey (i : ℕ) (f : ρ → ρ) (r : ρ) : ρ := if Row.id r = i then f r else r

theorem id_atKey {i : ℕ} {f : ρ → ρ} (h : ∀ r, Row.id (f r) = Row.id r) (r : ρ) :
    Row.id (atKey i f r) = Row.id r := by
  unfold atKey; split_ifs
  · exact h r
  · rfl

def modify (t : Table ρ) (i : ℕ) (f : ρ → ρ) (h : ∀ r, Row.id (f r) = Row.id r) : Table ρ :=
  t.update (atKey i f) (id_atKey h)

/-- Keep the rows that pass `p`; the serial does not go back. -/
def filter (t : Table ρ) (p : ρ → Bool) : Table ρ where
  rows := t.rows.filter p
  serial := t.serial
  nodup := t.nodup.sublist (List.Sublist.map _ List.filter_sublist)
  fresh := fun r hr => t.fresh r (List.mem_of_mem_filter hr)

def erase (t : Table ρ) (i : ℕ) : Table ρ := t.filter (fun r => Row.id r ≠ i)

section Rows
variable {t : Table ρ} {i : ℕ} {f : ρ → ρ} {p : ρ → Bool} {row : ℕ → ρ}

@[simp] theorem rows_insert (h : ∀ i, Row.id (row i) = i) :
    (t.insert row h).rows = t.rows ++ [row t.serial] := rfl

@[simp] theorem rows_update (h : ∀ r, Row.id (f r) = Row.id r) :
    (t.update f h).rows = t.rows.map f := rfl

@[simp] theorem rows_modify (h : ∀ r, Row.id (f r) = Row.id r) :
    (t.modify i f h).rows = t.rows.map (atKey i f) := rfl

@[simp] theorem rows_filter : (t.filter p).rows = t.rows.filter p := rfl

@[simp] theorem serial_insert (h : ∀ i, Row.id (row i) = i) :
    (t.insert row h).serial = t.serial + 1 := rfl

@[simp] theorem serial_update (h : ∀ r, Row.id (f r) = Row.id r) :
    (t.update f h).serial = t.serial := rfl

@[simp] theorem serial_modify (h : ∀ r, Row.id (f r) = Row.id r) :
    (t.modify i f h).serial = t.serial := rfl

@[simp] theorem serial_filter : (t.filter p).serial = t.serial := rfl

@[simp] theorem serial_erase : (t.erase i).serial = t.serial := rfl

theorem mem_modify (h : ∀ r, Row.id (f r) = Row.id r) {s : ρ} :
    s ∈ (t.modify i f h).rows ↔
      (s ∈ t.rows ∧ Row.id s ≠ i) ∨ ∃ r ∈ t.rows, Row.id r = i ∧ s = f r := by
  simp only [rows_modify, List.mem_map, atKey]
  constructor
  · rintro ⟨r, hr, rfl⟩
    by_cases hi : Row.id r = i
    · right; exact ⟨r, hr, hi, by simp [hi]⟩
    · left; simpa [hi] using hr
  · rintro (⟨hs, hi⟩ | ⟨r, hr, hi, rfl⟩)
    · exact ⟨s, hs, by simp [hi]⟩
    · exact ⟨r, hr, by simp [hi]⟩

theorem get_update (h : ∀ r, Row.id (f r) = Row.id r) (j : ℕ) :
    (t.update f h).get j = (t.get j).map f := by
  simp only [get, rows_update, List.find?_map]
  congr 2
  funext r
  simp [h]

theorem get_modify (h : ∀ r, Row.id (f r) = Row.id r) (j : ℕ) :
    (t.modify i f h).get j = if j = i then (t.get j).map f else t.get j := by
  rw [modify, get_update]
  cases hg : t.get j with
  | none => simp
  | some r =>
    have := id_of_get hg
    simp only [Option.map_some, atKey, this]
    split_ifs <;> rfl

theorem get_modify_map (h : ∀ r, Row.id (f r) = Row.id r) (j : ℕ) :
    (t.modify i f h).get j = (t.get j).map fun r => if j = i then f r else r := by
  rw [get_modify]
  split_ifs
  · rfl
  · exact Option.map_id'.symm

/-- A predicate that the row fails before and after does not see the write. -/
theorem filter_rows_modify (h : ∀ r, Row.id (f r) = Row.id r)
    (hp : ∀ r ∈ t.get i, p r = false ∧ p (f r) = false) :
    (t.modify i f h).rows.filter p = t.rows.filter p := by
  have hrow : ∀ r ∈ t.rows, atKey i f r = r ∨ p r = false ∧ p (atKey i f r) = false := by
    intro r hr
    unfold atKey
    split_ifs with hi
    · exact .inr (hp r (hi ▸ get_of_mem hr))
    · exact .inl rfl
  rw [rows_modify]
  generalize t.rows = rows at hrow
  induction rows with
  | nil => rfl
  | cons r rows ih =>
    have ih := ih fun x hx => hrow x (List.mem_cons_of_mem r hx)
    rw [List.map_cons, List.filter_cons, List.filter_cons, ih]
    rcases hrow r List.mem_cons_self with heq | ⟨hbefore, hafter⟩
    · rw [heq]
    · rw [hbefore, hafter]
      rfl

/-- Only a rewrite that leaves its row as it was leaves the table as it was. -/
theorem rows_modify_eq_iff (h : ∀ r, Row.id (f r) = Row.id r) :
    (t.modify i f h).rows = t.rows ↔ ∀ r ∈ t.get i, f r = r := by
  constructor
  · intro hrows r hr
    have hget : (t.modify i f h).get i = t.get i := by rw [get, hrows, get]
    rw [get_modify, if_pos rfl, Option.mem_def.mp hr, Option.map_some, Option.some.injEq] at hget
    exact hget
  · intro hf
    rw [rows_modify]
    refine (List.map_congr_left fun r hr => ?_).trans (List.map_id _)
    unfold atKey
    split_ifs with hi
    · exact hf r (get_eq_some.mpr ⟨hr, hi⟩)
    · rfl

/-- What a rewrite of one row does to a count. -/
theorem countP_modify (h : ∀ r, Row.id (f r) = Row.id r) (p : ρ → Bool) {r : ρ}
    (hr : t.get i = some r) :
    (t.modify i f h).rows.countP p + (if p r then 1 else 0) =
      t.rows.countP p + if p (f r) then 1 else 0 := by
  have hid : Row.id r = i := id_of_get hr
  obtain ⟨l₁, l₂, hl⟩ := List.append_of_mem (mem_of_get hr)
  have hnodup := t.nodup
  rw [hl, List.map_append, List.map_cons, List.nodup_middle, List.nodup_cons,
    ← List.map_append] at hnodup
  have hother : ∀ s ∈ l₁ ++ l₂, atKey i f s = s := by
    intro s hs
    refine if_neg fun hi => hnodup.1 ?_
    rw [hid, ← hi]
    exact List.mem_map_of_mem hs
  have hmap : ∀ l ⊆ l₁ ++ l₂, l.map (atKey i f) = l := fun l hl =>
    (List.map_congr_left fun s hs => hother s (hl hs)).trans (List.map_id l)
  rw [rows_modify, hl, List.map_append, List.map_cons, hmap l₁ (List.subset_append_left _ _),
    hmap l₂ (List.subset_append_right _ _), show atKey i f r = f r from if_pos hid]
  simp only [List.countP_append, List.countP_cons]
  omega

/-- Without the row of a rewrite, the table is what it was without it. -/
theorem rows_erase_modify (h : ∀ r, Row.id (f r) = Row.id r) :
    ((t.modify i f h).erase i).rows = (t.erase i).rows := by
  refine filter_rows_modify h fun r hr => ?_
  have hid : Row.id r = i := id_of_get hr
  simp only [h, hid, ne_eq, not_true_eq_false, decide_false, and_self]

/-- Without the row that was appended, the table is what it was. -/
theorem rows_erase_insert (h : ∀ i, Row.id (row i) = i) :
    ((t.insert row h).erase t.serial).rows = t.rows := by
  have hold : t.rows.filter (fun r => Row.id r ≠ t.serial) = t.rows :=
    List.filter_eq_self.mpr fun r hr => decide_eq_true (Nat.ne_of_lt (t.fresh r hr))
  have hnew : [row t.serial].filter (fun r => Row.id r ≠ t.serial) = [] := by
    simp only [List.filter_singleton, h, ne_eq, not_true_eq_false, decide_false, cond_false]
  rw [erase, rows_filter, rows_insert, List.filter_append, hold, hnew, List.append_nil]

theorem get_insert (h : ∀ i, Row.id (row i) = i) (j : ℕ) :
    (t.insert row h).get j = if j = t.serial then some (row t.serial) else t.get j := by
  split_ifs with hj
  · exact get_eq_some.mpr ⟨by simp, by rw [h, hj]⟩
  · cases hg : t.get j with
    | none =>
      rw [get_eq_none] at hg ⊢
      intro r hr
      rcases List.mem_append.mp hr with hr | hr
      · exact hg r hr
      · rw [List.mem_singleton.mp hr, h]; exact fun e => hj e.symm
    | some r =>
      exact get_eq_some.mpr ⟨by simp [mem_of_get hg], id_of_get hg⟩

theorem get_filter (j : ℕ) : (t.filter p).get j = (t.get j).filter p := by
  cases hg : t.get j with
  | none =>
    rw [Option.filter_none, get_eq_none]
    intro r hr
    exact get_eq_none.mp hg r (List.mem_of_mem_filter hr)
  | some r =>
    by_cases hp : p r
    · rw [Option.filter_some, if_pos hp]
      exact get_eq_some.mpr ⟨List.mem_filter.mpr ⟨mem_of_get hg, hp⟩, id_of_get hg⟩
    · rw [Option.filter_some, if_neg hp, get_eq_none]
      intro s hs hsi
      have hs' := List.mem_filter.mp hs
      rw [eq_of_id hs'.1 (mem_of_get hg) (hsi.trans (id_of_get hg).symm)] at hs'
      exact hp hs'.2

end Rows

/-! ### Unique indexes

`key` is `none` on the rows the index leaves out: a nullable column that is null,
or the `WHERE` clause of a partial index. -/

def UniqueOn (key : ρ → Option κ) (t : Table ρ) : Prop :=
  ∀ r ∈ t.rows, ∀ s ∈ t.rows, ∀ k, key r = some k → key s = some k → Row.id r = Row.id s

/-- Some row other than `i` already stands in the index under `k`. -/
def Clash [DecidableEq κ] (t : Table ρ) (key : ρ → Option κ) (i : ℕ) (k : Option κ) : Prop :=
  ∃ s ∈ t.rows, Row.id s ≠ i ∧ k.isSome ∧ key s = k

instance [DecidableEq κ] (t : Table ρ) (key : ρ → Option κ) (i : ℕ) (k : Option κ) :
    Decidable (t.Clash key i k) :=
  inferInstanceAs (Decidable (∃ s ∈ t.rows, Row.id s ≠ i ∧ k.isSome ∧ key s = k))

theorem uniqueOn_empty (key : ρ → Option κ) : UniqueOn key (empty : Table ρ) := by
  intro r hr; cases hr

theorem UniqueOn.eq {key : ρ → Option κ} {t : Table ρ} (h : UniqueOn key t) {r s : ρ} {k : κ}
    (hr : r ∈ t.rows) (hs : s ∈ t.rows) (kr : key r = some k) (ks : key s = some k) : r = s :=
  eq_of_id hr hs (h r hr s hs k kr ks)

/-- A value that the row itself carries clashes with no other row. -/
theorem not_clash_of_get [DecidableEq κ] {key : ρ → Option κ} {t : Table ρ} {i : ℕ} {r : ρ}
    (h : UniqueOn key t) (hr : t.get i = some r) : ¬ t.Clash key i (key r) := by
  rintro ⟨s, hs, hne, hk, he⟩
  obtain ⟨k, hk⟩ := Option.isSome_iff_exists.mp hk
  have : s = r := h.eq hs (mem_of_get hr) (he.trans hk) hk
  rw [this] at hne
  exact hne (id_of_get hr)

theorem UniqueOn.filter {key : ρ → Option κ} {t : Table ρ} (h : UniqueOn key t) (p : ρ → Bool) :
    UniqueOn key (t.filter p) := by
  intro r hr s hs
  exact h r (List.mem_of_mem_filter hr) s (List.mem_of_mem_filter hs)

/-- A rewrite that keeps each row's index entry or drops it keeps the index. -/
theorem UniqueOn.update {key : ρ → Option κ} {t : Table ρ} (h : UniqueOn key t) {f : ρ → ρ}
    (hf : ∀ r, Row.id (f r) = Row.id r) (hk : ∀ r k, key (f r) = some k → key r = some k) :
    UniqueOn key (t.update f hf) := by
  intro r hr s hs k kr ks
  obtain ⟨r', hr', rfl⟩ := List.mem_map.mp hr
  obtain ⟨s', hs', rfl⟩ := List.mem_map.mp hs
  rw [hf, hf]
  exact h r' hr' s' hs' k (hk r' k kr) (hk s' k ks)

theorem UniqueOn.insert [DecidableEq κ] {key : ρ → Option κ} {t : Table ρ} (h : UniqueOn key t)
    {row : ℕ → ρ} (hi : ∀ i, Row.id (row i) = i)
    (hc : ¬ t.Clash key t.serial (key (row t.serial))) : UniqueOn key (t.insert row hi) := by
  have hnew : ∀ s ∈ t.rows, ∀ k, key (row t.serial) = some k → key s ≠ some k := by
    intro s hs k kr ks
    exact hc ⟨s, hs, Nat.ne_of_lt (t.fresh s hs), by rw [kr]; rfl, by rw [kr, ks]⟩
  intro r hr s hs k kr ks
  simp only [rows_insert, List.mem_append, List.mem_singleton] at hr hs
  rcases hr with hr | rfl <;> rcases hs with hs | rfl
  · exact h r hr s hs k kr ks
  · exact absurd kr (hnew r hr k ks)
  · exact absurd ks (hnew s hs k kr)
  · rfl

theorem UniqueOn.modify [DecidableEq κ] {key : ρ → Option κ} {t : Table ρ} (h : UniqueOn key t)
    {i : ℕ} {f : ρ → ρ} (hf : ∀ r, Row.id (f r) = Row.id r)
    (hc : ∀ r, t.get i = some r → ¬ t.Clash key i (key (f r))) :
    UniqueOn key (t.modify i f hf) := by
  have hnew : ∀ r s k, r ∈ t.rows → Row.id r = i → s ∈ t.rows → Row.id s ≠ i →
      key (f r) = some k → key s ≠ some k := by
    intro r s k hr hri hs hsi kr ks
    exact hc r (get_eq_some.mpr ⟨hr, hri⟩) ⟨s, hs, hsi, by rw [kr]; rfl, by rw [kr, ks]⟩
  intro r hr s hs k kr ks
  rw [mem_modify] at hr hs
  rcases hr with ⟨hr, hri⟩ | ⟨r', hr, hri, rfl⟩ <;> rcases hs with ⟨hs, hsi⟩ | ⟨s', hs, hsi, rfl⟩
  · exact h r hr s hs k kr ks
  · exact absurd kr (hnew s' r k hs hsi hr hri ks)
  · exact absurd ks (hnew r' s k hr hri hs hsi kr)
  · rw [hf, hf, hri, hsi]

/-- The index holds at most one row under each key. -/
theorem UniqueOn.countP_le_one [DecidableEq κ] {key : ρ → Option κ} {t : Table ρ}
    (h : UniqueOn key t) (k : κ) : t.rows.countP (fun r => key r = some k) ≤ 1 := by
  have hnodup : (t.rows.filter fun r => key r = some k).Nodup :=
    (List.Nodup.of_map _ t.nodup).filter _
  have heq : ∀ r ∈ t.rows.filter (fun r => key r = some k),
      ∀ s ∈ t.rows.filter (fun r => key r = some k), r = s := by
    intro r hr s hs
    simp only [List.mem_filter, decide_eq_true_eq] at hr hs
    exact h.eq hr.1 hs.1 hr.2 hs.2
  rw [List.countP_eq_length_filter]
  cases hl : t.rows.filter (fun r => key r = some k) with
  | nil => simp
  | cons a l =>
    cases l with
    | nil => simp
    | cons b l =>
      rw [hl] at hnodup heq
      have hab : a = b := heq a (by simp) b (by simp)
      simp [hab] at hnodup

/-! ### Foreign keys -/

/-- Every row's `fk` names a row of `u`. -/
def Refers (fk : ρ → ℕ) (t : Table ρ) (u : Table υ) : Prop :=
  ∀ r ∈ t.rows, (u.get (fk r)).isSome

theorem refers_empty (fk : ρ → ℕ) (u : Table υ) : Refers fk (empty : Table ρ) u := by
  intro r hr; cases hr

theorem Refers.get {fk : ρ → ℕ} {t : Table ρ} {u : Table υ} (h : Refers fk t u) {r : ρ}
    (hr : r ∈ t.rows) : ∃ x, u.get (fk r) = some x :=
  Option.isSome_iff_exists.mp (h r hr)

theorem Refers.filter {fk : ρ → ℕ} {t : Table ρ} {u : Table υ} (h : Refers fk t u) (p : ρ → Bool) :
    Refers fk (t.filter p) u :=
  fun r hr => h r (List.mem_of_mem_filter hr)

theorem Refers.update {fk : ρ → ℕ} {t : Table ρ} {u : Table υ} (h : Refers fk t u) {f : ρ → ρ}
    (hf : ∀ r, Row.id (f r) = Row.id r)
    (hk : ∀ r ∈ t.rows, (u.get (fk (f r))).isSome ∨ fk (f r) = fk r) :
    Refers fk (t.update f hf) u := by
  intro s hs
  obtain ⟨r, hr, rfl⟩ := List.mem_map.mp hs
  rcases hk r hr with h' | h'
  · exact h'
  · rw [h']; exact h r hr

theorem Refers.insert {fk : ρ → ℕ} {t : Table ρ} {u : Table υ} (h : Refers fk t u) {row : ℕ → ρ}
    (hi : ∀ i, Row.id (row i) = i) (hn : (u.get (fk (row t.serial))).isSome) :
    Refers fk (t.insert row hi) u := by
  intro r hr
  simp only [rows_insert, List.mem_append, List.mem_singleton] at hr
  rcases hr with hr | rfl
  · exact h r hr
  · exact hn

/-- The referenced table may gain rows and have its rows rewritten. -/
theorem Refers.of_ids {fk : ρ → ℕ} {t : Table ρ} {u u' : Table υ} (h : Refers fk t u)
    (hu : ∀ i, (u.get i).isSome → (u'.get i).isSome) : Refers fk t u' :=
  fun r hr => hu _ (h r hr)

theorem isSome_update {t : Table ρ} {f : ρ → ρ} (hf : ∀ r, Row.id (f r) = Row.id r) (i : ℕ) :
    ((t.update f hf).get i).isSome = (t.get i).isSome := by
  rw [get_update]; cases t.get i <;> rfl

theorem isSome_modify {t : Table ρ} {j : ℕ} {f : ρ → ρ} (hf : ∀ r, Row.id (f r) = Row.id r)
    (i : ℕ) : ((t.modify j f hf).get i).isSome = (t.get i).isSome :=
  isSome_update (id_atKey hf) i

theorem isSome_insert {t : Table ρ} {row : ℕ → ρ} (hi : ∀ i, Row.id (row i) = i) (i : ℕ)
    (h : (t.get i).isSome) : ((t.insert row hi).get i).isSome := by
  rw [get_insert]; split_ifs
  · rfl
  · exact h

/-! ### Columns -/

/-- Every row has its columns in the range `P`. -/
def Every (P : ρ → Prop) (t : Table ρ) : Prop := ∀ r ∈ t.rows, P r

section Every
variable {P : ρ → Prop} {t : Table ρ}

theorem every_empty (P : ρ → Prop) : Every P (empty : Table ρ) := by
  intro r hr; cases hr

theorem Every.get (h : Every P t) {i : ℕ} {r : ρ} (hr : t.get i = some r) : P r :=
  h r (mem_of_get hr)

theorem Every.insert (h : Every P t) {row : ℕ → ρ} (hi : ∀ i, Row.id (row i) = i)
    (hn : P (row t.serial)) : Every P (t.insert row hi) := by
  intro r hr
  simp only [rows_insert, List.mem_append, List.mem_singleton] at hr
  rcases hr with hr | rfl
  · exact h r hr
  · exact hn

theorem Every.modify (h : Every P t) {i : ℕ} {f : ρ → ρ} (hf : ∀ r, Row.id (f r) = Row.id r)
    (hP : ∀ r, P r → P (f r)) : Every P (t.modify i f hf) := by
  intro s hs
  rcases (mem_modify hf).mp hs with ⟨hs, -⟩ | ⟨r, hr, -, rfl⟩
  · exact h s hs
  · exact hP r (h r hr)

theorem Every.filter (h : Every P t) (p : ρ → Bool) : Every P (t.filter p) :=
  fun r hr => h r (List.mem_of_mem_filter hr)

end Every

/-! ### Later versions of a table -/

/-- `u` may have lost, gained and rewritten rows of `t`, but a key that was drawn
before names the same row or none, with the same `f`. -/
structure Evolves {β : Type v} (f : ρ → β) (t u : Table ρ) : Prop where
  serial : t.serial ≤ u.serial
  row : ∀ i < t.serial, ∀ r, u.get i = some r → ∃ s, t.get i = some s ∧ f r = f s

section Evolves
variable {β : Type v} {f : ρ → β} {t u x : Table ρ}

theorem Evolves.refl (f : ρ → β) (t : Table ρ) : Evolves f t t :=
  ⟨Nat.le_refl _, fun _ _ r h => ⟨r, h, rfl⟩⟩

theorem Evolves.trans (h : Evolves f t u) (h' : Evolves f u x) : Evolves f t x where
  serial := Nat.le_trans h.serial h'.serial
  row := by
    intro i hi r hr
    obtain ⟨s, hs, e⟩ := h'.row i (Nat.lt_of_lt_of_le hi h.serial) r hr
    obtain ⟨s', hs', e'⟩ := h.row i hi s hs
    exact ⟨s', hs', e.trans e'⟩

theorem evolves_insert {row : ℕ → ρ} (hi : ∀ i, Row.id (row i) = i) :
    Evolves f t (t.insert row hi) where
  serial := Nat.le_succ _
  row := by
    intro i hlt r hr
    rw [get_insert, if_neg (Nat.ne_of_lt hlt)] at hr
    exact ⟨r, hr, rfl⟩

theorem evolves_update {g : ρ → ρ} (hg : ∀ r, Row.id (g r) = Row.id r) (hf : ∀ r, f (g r) = f r) :
    Evolves f t (t.update g hg) where
  serial := Nat.le_refl _
  row := by
    intro i _ r hr
    rw [get_update, Option.map_eq_some_iff] at hr
    obtain ⟨s, hs, rfl⟩ := hr
    exact ⟨s, hs, hf s⟩

theorem evolves_modify {g : ρ → ρ} {i : ℕ} (hg : ∀ r, Row.id (g r) = Row.id r)
    (hf : ∀ r, f (g r) = f r) : Evolves f t (t.modify i g hg) :=
  evolves_update _ fun r => by
    unfold atKey; split_ifs
    · exact hf r
    · rfl

theorem evolves_filter {p : ρ → Bool} : Evolves f t (t.filter p) where
  serial := Nat.le_refl _
  row := by
    intro i _ r hr
    rw [get_filter, Option.filter_eq_some_iff] at hr
    exact ⟨r, hr.1, rfl⟩

end Evolves

/-- Every row of `t` is still there in `u`, and what has become of it is `P` of what it was. -/
def Grows (P : ρ → ρ → Prop) (t u : Table ρ) : Prop :=
  ∀ i r, t.get i = some r → ∃ s, u.get i = some s ∧ P r s

section Grows
variable {P : ρ → ρ → Prop} {t u x : Table ρ}

theorem Grows.refl (hP : ∀ r, P r r) (t : Table ρ) : Grows P t t :=
  fun _ r hr => ⟨r, hr, hP r⟩

theorem Grows.trans (hP : ∀ a b c, P a b → P b c → P a c) (h : Grows P t u) (h' : Grows P u x) :
    Grows P t x := by
  intro i r hr
  obtain ⟨s, hs, hrs⟩ := h i r hr
  obtain ⟨s', hs', hss⟩ := h' i s hs
  exact ⟨s', hs', hP r s s' hrs hss⟩

theorem grows_insert (hP : ∀ r, P r r) {row : ℕ → ρ} (hi : ∀ i, Row.id (row i) = i) :
    Grows P t (t.insert row hi) := by
  intro i r hr
  refine ⟨r, ?_, hP r⟩
  rw [get_insert, if_neg (Nat.ne_of_lt (lt_serial_of_get hr))]
  exact hr

theorem grows_modify (hP : ∀ r, P r r) {f : ρ → ρ} {i : ℕ} (hf : ∀ r, Row.id (f r) = Row.id r)
    (hrow : ∀ r, t.get i = some r → P r (f r)) : Grows P t (t.modify i f hf) := by
  intro j r hr
  rw [get_modify]
  split_ifs with hj
  · subst hj
    exact ⟨f r, by rw [hr]; rfl, hrow r hr⟩
  · exact ⟨r, hr, hP r⟩

end Grows

end Table

end MovieReservation.Lib
