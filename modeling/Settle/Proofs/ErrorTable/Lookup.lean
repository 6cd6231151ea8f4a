import Mathlib.Data.List.Induction
import Mathlib.Data.List.TakeWhile
import Settle.ErrorTable

/-! # How a code finds its class

A lookup asks for the entries of a code and of its parents, from the nearest to the farthest. The
parents are the beginnings of the code that end at a dot, so the longest of them that is a key
decides, and a key that ends inside a part of the code is never asked for. -/

namespace Settle.ErrorTable

variable {path key up last : List Char}

/-! ## Paths and their parents -/

theorem ne_dot_of_mem_reverse (h : '.' ∉ path) :
    ∀ x ∈ path.reverse, decide (x ≠ '.') = true := by
  intro x hx
  apply decide_eq_true
  rintro rfl
  exact h (List.mem_reverse.mp hx)

theorem parent?_of_not_mem (h : '.' ∉ path) : parent? path = none := by
  have hdrop : path.reverse.dropWhile (· ≠ '.') = [] :=
    List.dropWhile_eq_nil_iff.mpr (ne_dot_of_mem_reverse h)
  simp only [parent?, hdrop]

theorem parent?_append (h : '.' ∉ last) : parent? (up ++ '.' :: last) = some up := by
  have hpath : (up ++ '.' :: last).reverse = last.reverse ++ '.' :: up.reverse := by simp
  have hdrop : (up ++ '.' :: last).reverse.dropWhile (· ≠ '.') = '.' :: up.reverse := by
    rw [hpath, List.dropWhile_append_of_pos (ne_dot_of_mem_reverse h)]
    rfl
  simp only [parent?, hdrop, List.reverse_reverse]

theorem parts (path : List Char) :
    '.' ∉ path ∨ ∃ up last, path = up ++ '.' :: last ∧ '.' ∉ last := by
  by_cases h : '.' ∈ path
  · obtain ⟨back, front, hsplit, hback⟩ :=
      List.eq_append_cons_of_mem (List.mem_reverse.mpr h)
    refine .inr ⟨front.reverse, back.reverse, ?_, fun hmem => hback (List.mem_reverse.mp hmem)⟩
    rw [← List.reverse_inj, hsplit]
    simp
  · exact .inl h

/-- What holds of paths without a dot, and of a path whenever it holds of its parent, holds of
all paths. -/
@[elab_as_elim]
theorem parts_induction {motive : List Char → Prop} (path : List Char)
    (plain : ∀ path, '.' ∉ path → motive path)
    (part : ∀ up last, '.' ∉ last → motive up → motive (up ++ '.' :: last)) : motive path := by
  rcases parts path with h | ⟨up, last, hpath, h⟩
  · exact plain path h
  · have hlt : up.length < path.length := by simp [hpath]
    rw [hpath]
    exact part up last h (parts_induction up plain part)
  termination_by path.length

/-- A path and its parents, from the nearest to the farthest. -/
def lineage (path : List Char) : List (List Char) :=
  path :: match _h : parent? path with
    | some up => lineage up
    | none => []
  termination_by path.length
  decreasing_by exact length_lt_of_parent? _h

theorem lineage_plain (h : '.' ∉ path) : lineage path = [path] := by
  rw [lineage]
  split
  · next up hup =>
      rw [parent?_of_not_mem h] at hup
      cases hup
  · rfl

theorem lineage_part (h : '.' ∉ last) :
    lineage (up ++ '.' :: last) = (up ++ '.' :: last) :: lineage up := by
  rw [lineage]
  split
  · next found hfound =>
      rw [parent?_append h] at hfound
      obtain rfl := Option.some.inj hfound
      rfl
  · next hnone =>
      rw [parent?_append h] at hnone
      cases hnone

theorem append_dot_iff (h : '.' ∉ last) : (∃ rest, up ++ '.' :: last = key ++ '.' :: rest) ↔
    up = key ∨ ∃ rest, up = key ++ '.' :: rest := by
  constructor
  · rintro ⟨rest, hsplit⟩
    rcases List.append_eq_append_iff.mp hsplit with ⟨mid, hkey, hlast⟩ | ⟨mid, hup, hrest⟩
    · cases mid with
      | nil => exact .inl (by simpa using hkey.symm)
      | cons x mid =>
          obtain ⟨-, rfl⟩ := List.cons.inj hlast
          exact (h (by simp)).elim
    · cases mid with
      | nil => exact .inl (by simpa using hup)
      | cons x mid =>
          obtain ⟨rfl, -⟩ := List.cons.inj hrest
          exact .inr ⟨mid, hup⟩
  · rintro (rfl | ⟨rest, rfl⟩)
    · exact ⟨last, rfl⟩
    · exact ⟨rest ++ '.' :: last, by simp⟩

theorem mem_lineage_iff :
    key ∈ lineage path ↔ path = key ∨ ∃ rest, path = key ++ '.' :: rest := by
  induction path using parts_induction with
  | plain path h =>
      rw [lineage_plain h, List.mem_singleton, eq_comm]
      refine (or_iff_left ?_).symm
      rintro ⟨rest, rfl⟩
      exact h (by simp)
  | part up last h ih => rw [lineage_part h, List.mem_cons, ih, append_dot_iff h, eq_comm]

theorem length_le_of_mem_lineage (h : key ∈ lineage path) : key.length ≤ path.length := by
  rcases mem_lineage_iff.mp h with rfl | ⟨rest, rfl⟩
  · exact Nat.le_refl _
  · simp

theorem lineage_decreasing (path : List Char) :
    (lineage path).Pairwise fun near far => far.length < near.length := by
  induction path using parts_induction with
  | plain path h =>
      rw [lineage_plain h]
      exact List.pairwise_singleton _ _
  | part up last h ih =>
      rw [lineage_part h]
      refine List.pairwise_cons.mpr ⟨fun far hfar => ?_, ih⟩
      have hle := length_le_of_mem_lineage hfar
      rw [List.length_append, List.length_cons]
      omega

theorem length_lineage (path : List Char) : (lineage path).length = path.count '.' + 1 := by
  induction path using parts_induction with
  | plain path h => rw [lineage_plain h, List.count_eq_zero.mpr h, List.length_singleton]
  | part up last h ih =>
      rw [lineage_part h, List.length_cons, ih, List.count_append, List.count_cons_self,
        List.count_eq_zero.mpr h]

/-! ## Keys that are asked for -/

variable {t : ErrorTable} {k code : String} {c : CodeClass}

/-- The key is the code, or a beginning of it that ends at a dot. -/
def Covers (key code : String) : Prop := code = key ∨ ∃ rest, code = key ++ "." ++ rest

/-- The keys that a lookup of the code asks for, in order. -/
def probes (code : String) : List String := (lineage code.toList).map String.ofList

theorem lookupPath_eq_findSome? (t : ErrorTable) (path : List Char) :
    t.lookupPath path = ((lineage path).map String.ofList).findSome? t.entry? := by
  induction path using parts_induction with
  | plain path h =>
      rw [lookupPath, lineage_plain h, List.map_singleton, List.findSome?_singleton]
      cases t.entry? (String.ofList path) with
      | some c => rfl
      | none =>
          dsimp only
          split
          · next up hup =>
              rw [parent?_of_not_mem h] at hup
              cases hup
          · rfl
  | part up last h ih =>
      rw [lookupPath, lineage_part h, List.map_cons, List.findSome?_cons]
      cases t.entry? (String.ofList (up ++ '.' :: last)) with
      | some c => rfl
      | none =>
          dsimp only
          split
          · next found hfound =>
              rw [parent?_append h] at hfound
              obtain rfl := Option.some.inj hfound
              exact ih
          · next hnone =>
              rw [parent?_append h] at hnone
              cases hnone

theorem lookup_eq_findSome? (t : ErrorTable) (code : String) :
    t.lookup code = (probes code).findSome? t.entry? := lookupPath_eq_findSome? t code.toList

theorem mem_probes_iff : k ∈ probes code ↔ Covers k code := by
  have hmem : k ∈ probes code ↔ k.toList ∈ lineage code.toList := by
    rw [probes, List.mem_map]
    constructor
    · rintro ⟨path, hpath, rfl⟩
      rwa [String.toList_ofList]
    · intro hk
      exact ⟨k.toList, hk, String.ofList_toList⟩
  rw [hmem, mem_lineage_iff, Covers, String.toList_inj]
  refine or_congr_right ⟨?_, ?_⟩
  · rintro ⟨rest, hrest⟩
    refine ⟨String.ofList rest, String.toList_inj.mp ?_⟩
    simp [hrest]
  · rintro ⟨rest, rfl⟩
    exact ⟨rest.toList, by simp⟩

theorem probes_decreasing (code : String) :
    (probes code).Pairwise fun near far => far.length < near.length := by
  refine List.pairwise_map.mpr ((lineage_decreasing code.toList).imp fun hlt => ?_)
  simpa using hlt

/-- The first of ever shorter keys that has an entry is the longest one that has. -/
theorem findSome?_eq_some_iff {keys : List String} {f : String → Option CodeClass}
    (h : keys.Pairwise fun near far => far.length < near.length) :
    keys.findSome? f = some c ↔ ∃ k ∈ keys, f k = some c ∧
      ∀ other ∈ keys, f other ≠ none → other.length ≤ k.length := by
  rw [List.findSome?_eq_some_iff]
  constructor
  · rintro ⟨longer, k, shorter, rfl, hk, hnone⟩
    refine ⟨k, by simp, hk, fun other hother hsome => ?_⟩
    rcases List.mem_append.mp hother with hother | hother
    · exact (hsome (hnone other hother)).elim
    · rcases List.mem_cons.mp hother with rfl | hother
      · exact Nat.le_refl _
      · have hlater := (List.pairwise_cons.mp (List.pairwise_append.mp h).2.1).1
        exact Nat.le_of_lt (hlater other hother)
  · rintro ⟨k, hk, hfound, hlongest⟩
    obtain ⟨longer, shorter, rfl⟩ := List.append_of_mem hk
    refine ⟨longer, k, shorter, rfl, hfound, fun other hother => ?_⟩
    by_contra hsome
    have hle := hlongest other (List.mem_append_left _ hother) hsome
    have hlt := (List.pairwise_append.mp h).2.2 other hother k (by simp)
    omega

theorem lookup_eq_some_iff : t.lookup code = some c ↔
    ∃ k, Covers k code ∧ t.entry? k = some c ∧
      ∀ other, Covers other code → t.entry? other ≠ none → other.length ≤ k.length := by
  rw [lookup_eq_findSome?, findSome?_eq_some_iff (probes_decreasing code)]
  simp only [mem_probes_iff]

theorem lookup_eq_none_iff :
    t.lookup code = none ↔ ∀ k, Covers k code → t.entry? k = none := by
  rw [lookup_eq_findSome?, List.findSome?_eq_none_iff]
  simp only [mem_probes_iff]

/-- A lookup depends on the entries of the code and its dotted beginnings alone. -/
theorem lookup_congr {t' : ErrorTable} (h : ∀ k, Covers k code → t.entry? k = t'.entry? k) :
    t.lookup code = t'.lookup code := by
  refine Option.ext fun c => ?_
  rw [lookup_eq_some_iff, lookup_eq_some_iff]
  refine exists_congr fun k => and_congr_right fun hk => ?_
  rw [h k hk]
  exact and_congr_right fun _ => forall₂_congr fun other hother => by rw [h other hother]

/-! ## Entries -/

theorem entry?_insert_of_ne {other : String} (h : other ≠ k) :
    entry? (t.insert k c) other = t.entry? other := by
  have hne : (other == k) = false := beq_false_of_ne h
  unfold entry? insert
  rw [List.lookup_cons, hne]

theorem lookup_insert_of_not_covers (h : ¬ Covers k code) :
    (t.insert k c).lookup code = t.lookup code := by
  apply lookup_congr
  intro other hother
  apply entry?_insert_of_ne
  rintro rfl
  exact h hother

theorem not_covers_of_inside {x : Char} {rest : List Char}
    (h : code.toList = k.toList ++ x :: rest) (hx : x ≠ '.') : ¬ Covers k code := by
  rintro (rfl | ⟨more, rfl⟩)
  · simp at h
  · simp only [String.toList_append, List.append_assoc, List.append_cancel_left_eq] at h
    exact hx (List.cons.inj h).1.symm

/-- A change to a table. -/
inductive Edit where
  | insert (code : String) (c : CodeClass)
  | extend (lists : CodeLists)
  deriving DecidableEq, Repr

/-- The codes that a change registers, in order. -/
def Edit.entries : Edit → List (String × CodeClass)
  | .insert code c => [(code, c)]
  | .extend lists => lists.entries

def edit (t : ErrorTable) : Edit → ErrorTable
  | .insert code c => t.insert code c
  | .extend lists => t.extend lists

/-- An empty table after a row of changes. -/
def edited (edits : List Edit) : ErrorTable := edits.foldl edit empty

variable {edits : List Edit}

/-- The table in effect is one of these. -/
theorem configured_eq_edited (lists : CodeLists) :
    configured lists = edited [.extend builtIn, .extend lists] := rfl

theorem edited_concat (edits : List Edit) (e : Edit) :
    edited (edits ++ [e]) = (edited edits).edit e := by
  simp [edited]

theorem insertAll_entries (t : ErrorTable) (entries : List (String × CodeClass)) :
    (t.insertAll entries).entries = entries.reverse ++ t.entries := by
  induction entries generalizing t with
  | nil => rfl
  | cons entry entries ih =>
      have hstep : t.insertAll (entry :: entries) =
          (t.insert entry.1 entry.2).insertAll entries := rfl
      rw [hstep, ih, List.reverse_cons, List.append_assoc]
      rfl

theorem edit_entries (t : ErrorTable) (e : Edit) :
    (t.edit e).entries = e.entries.reverse ++ t.entries := by
  cases e with
  | insert => rfl
  | extend lists => exact insertAll_entries t lists.entries

theorem edited_entries (edits : List Edit) :
    (edited edits).entries = (edits.flatMap Edit.entries).reverse := by
  induction edits using List.reverseRecOn with
  | nil => rfl
  | append_singleton edits e ih => rw [edited_concat, edit_entries, ih]; simp

/-- The changes register a key with this class, and do not register it again later. -/
def Registered (edits : List Edit) (k : String) (c : CodeClass) : Prop :=
  ∃ before after, edits.flatMap Edit.entries = before ++ (k, c) :: after ∧
    ∀ d, (k, d) ∉ after

theorem entry?_edited : entry? (edited edits) k = some c ↔ Registered edits k c := by
  unfold entry?
  rw [edited_entries, List.lookup_eq_some_iff]
  constructor
  · rintro ⟨newer, older, hsplit, hnewer⟩
    refine ⟨older.reverse, newer.reverse, ?_, fun d hd => ?_⟩
    · rw [← List.reverse_inj, hsplit]
      simp
    · simpa using hnewer _ (List.mem_reverse.mp hd)
  · rintro ⟨before, after, hsplit, hafter⟩
    refine ⟨after.reverse, before.reverse, by simp [hsplit], ?_⟩
    rintro ⟨other, d⟩ hd
    rw [bne_iff_ne]
    rintro rfl
    exact hafter d (List.mem_reverse.mp hd)

theorem entry?_edited_ne_none :
    entry? (edited edits) k ≠ none ↔ ∃ c, Registered edits k c := by
  rw [Option.ne_none_iff_exists']
  exact exists_congr fun c => entry?_edited

/-! ## The longest key -/

/-- What a lookup finds in a table after a row of changes. -/
structure LookupSpec (edits : List Edit) (code : String) : Prop where
  some_iff : ∀ c, (edited edits).lookup code = some c ↔
    ∃ k, Registered edits k c ∧ Covers k code ∧
      ∀ other d, Registered edits other d → Covers other code → other.length ≤ k.length
  none_iff : (edited edits).lookup code = none ↔
    ∀ k c, Registered edits k c → ¬ Covers k code
  inside : ∀ {k x rest}, code.toList = k.toList ++ x :: rest → x ≠ '.' → ∀ c,
    (edited (edits ++ [.insert k c])).lookup code = (edited edits).lookup code
  asks : (edited edits).lookup code = (probes code).findSome? fun k => entry? (edited edits) k
  asks_iff : ∀ {k}, k ∈ probes code ↔ Covers k code
  shortens : (probes code).Pairwise fun near far => far.length < near.length
  ends : (probes code).length = code.toList.count '.' + 1

/-- A lookup asks for the code and its dotted beginnings from the longest one on, once for each
part of the code, and the first that is registered decides. -/
theorem lookup_edited (edits : List Edit) (code : String) : LookupSpec edits code := by
  refine
    { some_iff := ?_
      none_iff := ?_
      inside := ?_
      asks := lookup_eq_findSome? _ code
      asks_iff := mem_probes_iff
      shortens := probes_decreasing code
      ends := ?_ }
  · intro c
    rw [lookup_eq_some_iff]
    simp only [entry?_edited, entry?_edited_ne_none]
    refine exists_congr fun k => ?_
    constructor
    · rintro ⟨hcovers, hk, hlongest⟩
      exact ⟨hk, hcovers, fun other d hd hother => hlongest other hother ⟨d, hd⟩⟩
    · rintro ⟨hk, hcovers, hlongest⟩
      exact ⟨hcovers, hk, fun other hother ⟨d, hd⟩ => hlongest other d hd hother⟩
  · rw [lookup_eq_none_iff]
    constructor
    · intro hnone k c hk hcovers
      exact entry?_edited_ne_none.mpr ⟨c, hk⟩ (hnone k hcovers)
    · intro hnone k hcovers
      by_contra hsome
      obtain ⟨c, hk⟩ := entry?_edited_ne_none.mp hsome
      exact hnone k c hk hcovers
  · intro k x rest hcode hx c
    rw [edited_concat]
    exact lookup_insert_of_not_covers (not_covers_of_inside hcode hx)
  · rw [probes, List.length_map, length_lineage]

/-- The nearest entry decides, which is here that of the parent. -/
example : (edited [.extend builtIn, .insert "ResourceInUse.Group" .fatal]).lookup
    "ResourceInUse.Group.Member" = some .fatal := by decide +kernel

end Settle.ErrorTable
