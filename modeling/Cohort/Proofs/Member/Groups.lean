import Cohort.Member.Groups
import Mathlib.Data.List.DropRight

/-! Group lists are lists of first occurrences. Which of the two texts a name stands in makes no
difference, and a list that is written out with commas is read as it was, so lists can be merged again
and in any grouping. -/

namespace Cohort

namespace Text

theorem pieces_eq_splitOn (separator : Char) (cs : List Char) :
    pieces separator cs = cs.splitOn separator := by
  induction cs with
  | nil => rfl
  | cons c rest ih =>
    rw [pieces, List.splitOn_cons_eq_if_modifyHead, ← ih]
    simp only [beq_iff_eq]
    split
    · rfl
    · have some : pieces separator rest ≠ [] := ih ▸ List.splitOn_ne_nil separator rest
      cases split : pieces separator rest with
      | nil => exact absurd split some
      | cons piece others => rfl

theorem not_mem_of_mem_pieces {separator : Char} {cs piece : List Char}
    (member : piece ∈ pieces separator cs) : separator ∉ piece := by
  induction cs generalizing piece with
  | nil =>
    rw [List.mem_singleton.mp member]
    exact List.not_mem_nil
  | cons c rest ih =>
    rw [pieces] at member
    split at member
    · rcases List.mem_cons.mp member with rfl | later
      · exact List.not_mem_nil
      · exact ih later
    · rename_i other
      cases split : pieces separator rest with
      | nil =>
        rw [split] at member
        rw [List.mem_singleton.mp member, List.mem_singleton]
        exact fun same => other same.symm
      | cons first others =>
        rw [split] at member
        rcases List.mem_cons.mp member with rfl | later
        · refine List.not_mem_cons_of_ne_of_not_mem (fun same => other same.symm) ?_
          exact ih (split ▸ List.mem_cons_self)
        · exact ih (split ▸ List.mem_cons_of_mem first later)

theorem trim_eq (cs : List Char) : trim cs = (cs.dropWhile isBlank).rdropWhile isBlank := rfl

theorem mem_of_mem_trim {c : Char} {cs : List Char} (member : c ∈ trim cs) : c ∈ cs :=
  (List.dropWhile_sublist _).subset ((List.rdropWhile_prefix _ _).subset member)

/-- Nothing is left to cut off a text that was trimmed. -/
theorem trim_trim (cs : List Char) : trim (trim cs) = trim cs := by
  have front : (trim cs).dropWhile isBlank = trim cs := by
    cases trimmed : trim cs with
    | nil => rfl
    | cons c rest =>
      obtain ⟨cut, whole⟩ : c :: rest <+: cs.dropWhile isBlank :=
        trimmed ▸ List.rdropWhile_prefix _ _
      have left : cs.dropWhile isBlank ≠ [] := by simp [← whole]
      have first := List.head_dropWhile_not isBlank left
      simp only [← whole, List.cons_append, List.head_cons] at first
      rw [List.dropWhile_cons_of_neg (by simp [first])]
  calc trim (trim cs)
      = ((trim cs).dropWhile isBlank).rdropWhile isBlank := trim_eq _
    _ = (trim cs).rdropWhile isBlank := by rw [front]
    _ = trim cs := List.rdropWhile_idempotent _ _

end Text

namespace Groups

/-- A text that stands for itself in a group list: not empty, not in pieces and with nothing to trim. -/
structure IsName (name : String) : Prop where
  nonempty : name ≠ ""
  whole : ',' ∉ name.toList
  trimmed : Text.trim name.toList = name.toList

/-- A group list as one text. -/
def join (groups : List String) : String := ",".intercalate groups

/-! ### Names in texts -/

theorem isName_of_mem_split {text name : String} (member : name ∈ split text) : IsName name := by
  obtain ⟨kept, chosen, rfl⟩ := List.mem_map.mp member
  obtain ⟨cut, some⟩ := List.mem_filter.mp chosen
  obtain ⟨piece, found, rfl⟩ := List.mem_map.mp cut
  refine ⟨?_, ?_, ?_⟩
  · rintro empty
    have none : Text.trim piece = [] := by simpa using empty
    simp [none] at some
  · rw [String.toList_ofList]
    exact fun comma => Text.not_mem_of_mem_pieces found (Text.mem_of_mem_trim comma)
  · rw [String.toList_ofList]
    exact Text.trim_trim piece

/-- A comma between two texts divides their names. -/
theorem split_comma (a b : String) : split (a ++ "," ++ b) = split a ++ split b := by
  have divided : (a ++ "," ++ b).toList = a.toList ++ ',' :: b.toList := by simp
  simp only [split, Text.pieces_eq_splitOn, divided, List.splitOn_append_cons_self, List.map_append,
    List.filter_append]

theorem split_empty : split "" = [] := by decide

/-- Names that are written out are read as they were. -/
theorem split_join {groups : List String} (names : ∀ name ∈ groups, IsName name) :
    split (join groups) = groups := by
  by_cases some : groups = []
  · rw [some]
    exact split_empty
  have written : (join groups).toList = [','].intercalate (groups.map String.toList) := by
    simp [join]
  have cut : Text.pieces ',' (join groups).toList = groups.map String.toList := by
    rw [Text.pieces_eq_splitOn, written]
    refine List.splitOn_intercalate ',' ?_ (by simpa using some)
    rintro _ member
    obtain ⟨name, found, rfl⟩ := List.mem_map.mp member
    exact (names name found).whole
  have trimmed : (groups.map String.toList).map Text.trim = groups.map String.toList := by
    rw [List.map_map]
    exact List.map_congr_left fun name member => (names name member).trimmed
  have kept : (groups.map String.toList).filter (!·.isEmpty) = groups.map String.toList := by
    refine List.filter_eq_self.mpr fun _ member => ?_
    obtain ⟨name, found, rfl⟩ := List.mem_map.mp member
    simpa using (names name found).nonempty
  rw [split, cut, trimmed, kept, List.map_map]
  exact (List.map_congr_left fun name _ => String.ofList_toList).trans (List.map_id _)

/-! ### First occurrences -/

theorem mem_add {groups : List String} {name x : String} : x ∈ add groups name ↔ x ∈ groups ∨ x = name := by
  unfold add
  split
  · rename_i known
    exact ⟨Or.inl, fun found => found.elim id fun same => same ▸ known⟩
  · simp

theorem mem_foldl_add {groups names : List String} {x : String} :
    x ∈ names.foldl add groups ↔ x ∈ groups ∨ x ∈ names := by
  induction names generalizing groups with
  | nil => simp
  | cons name rest ih => rw [List.foldl_cons, ih, mem_add, List.mem_cons, or_assoc]

/-- Names that are there already add nothing. -/
theorem foldl_add_of_subset {groups names : List String} (known : names ⊆ groups) :
    names.foldl add groups = groups := by
  induction names with
  | nil => rfl
  | cons name rest ih =>
    obtain ⟨first, later⟩ := List.cons_subset.mp known
    rw [List.foldl_cons, add, if_pos first, ih later]

/-- What is new of some names comes behind, each name at its first place. -/
theorem foldl_add_eq (groups names : List String) :
    names.foldl add groups = groups ++ (names.filter (· ∉ groups)).eraseDups := by
  induction names generalizing groups with
  | nil => simp
  | cons name rest ih =>
    rw [List.foldl_cons, ih]
    by_cases known : name ∈ groups
    · simp [add, known]
    · have others : (rest.filter (· ∉ groups)).filter (fun x => !x == name) =
          rest.filter (· ∉ groups ++ [name]) := by
        rw [List.filter_filter]
        refine List.filter_congr fun x _ => ?_
        by_cases same : x = name <;> simp [same, known]
      rw [add, if_neg known, List.filter_cons_of_pos (by simpa using known), List.eraseDups_cons,
        others, List.append_assoc]
      rfl

/-- Adding what a list has come to is adding first what it had and then what it took in. -/
theorem foldl_add_foldl (groups xs ys : List String) :
    (ys.foldl add xs).foldl add groups = ys.foldl add (xs.foldl add groups) := by
  induction ys generalizing xs with
  | nil => rfl
  | cons y rest ih =>
    have first : (add xs y).foldl add groups = add (xs.foldl add groups) y := by
      by_cases known : y ∈ xs
      · have there : y ∈ xs.foldl add groups := mem_foldl_add.mpr (.inr known)
        rw [add, add, if_pos known, if_pos there]
      · rw [add, if_neg known, List.foldl_concat]
    rw [List.foldl_cons, List.foldl_cons, ih, first]

/-! ### Merging -/

theorem merge_eq (a b : String) : merge a b = (split a ++ split b).eraseDups := by
  rw [merge, foldl_add_eq]
  simp

theorem merge_eq_foldl (a b : String) : merge a b = (split b).foldl add ((split a).foldl add []) :=
  List.foldl_append

theorem isName_of_mem_merge {a b name : String} (member : name ∈ merge a b) : IsName name := by
  rw [merge, mem_foldl_add] at member
  rcases List.mem_append.mp (member.resolve_left List.not_mem_nil) with left | right
  · exact isName_of_mem_split left
  · exact isName_of_mem_split right

/-- A merged list that is written out is read as it was. -/
theorem split_join_merge (a b : String) : split (join (merge a b)) = merge a b :=
  split_join fun _ => isName_of_mem_merge

theorem foldl_add_merge (groups : List String) (a b : String) :
    (merge a b).foldl add groups = (split b).foldl add ((split a).foldl add groups) := by
  rw [merge, foldl_add_foldl, List.foldl_nil, List.foldl_append]

/-- The names in a comma separated text: what is left of each piece without the blanks at its ends, if
anything is. -/
def names (text : String) : List String :=
  (((text.toList.splitOn ',').map fun piece =>
    (piece.dropWhile Text.isBlank).rdropWhile Text.isBlank).filter (· ≠ [])).map String.ofList

theorem split_eq_names (text : String) : split text = names text := by
  have kept : ∀ pieces : List (List Char), pieces.filter (!·.isEmpty) = pieces.filter (· ≠ []) :=
    fun pieces => List.filter_congr fun piece _ => by cases piece <;> rfl
  rw [split, Text.pieces_eq_splitOn, kept]
  rfl

/-- Merging two texts lists the names of both, each at its first occurrence, so only the text with a
comma between the two matters. A merged list that is written out and merged again, in either place or
in both, is the same list, and of three texts it does not matter which two are merged first. -/
theorem merge_first_occurrences (a b c : String) :
    merge a b = (names a ++ names b).eraseDups ∧
      merge a b = (names (a ++ "," ++ b)).eraseDups ∧
      merge (join (merge a b)) "" = merge a b ∧
      merge "" (join (merge a b)) = merge a b ∧
      merge (join (merge a b)) (join (merge a b)) = merge a b ∧
      merge (join (merge a b)) c = merge a (join (merge b c)) := by
  have again : (merge a b).foldl add [] = merge a b := by
    rw [foldl_add_merge, merge_eq_foldl]
  simp only [← split_eq_names, split_comma, ← merge_eq, true_and]
  refine ⟨?_, ?_, ?_, ?_⟩
  · rw [merge_eq_foldl, split_join_merge, split_empty, List.foldl_nil, again]
  · rw [merge_eq_foldl, split_join_merge, split_empty, List.foldl_nil, again]
  · rw [merge_eq_foldl, split_join_merge, again]
    exact foldl_add_of_subset (List.Subset.refl _)
  · calc merge (join (merge a b)) c
        = (split c).foldl add (merge a b) := by rw [merge_eq_foldl, split_join_merge, again]
      _ = (split c).foldl add ((split b).foldl add ((split a).foldl add [])) := by rw [merge_eq_foldl]
      _ = (merge b c).foldl add ((split a).foldl add []) := (foldl_add_merge _ b c).symm
      _ = merge a (join (merge b c)) := by rw [merge_eq_foldl a, split_join_merge]

/-- Pieces, blanks and repetitions of both texts at once. -/
example : merge " a , ,b" ",b c,\u3000a," = ["a", "b", "b c"] := by decide

end Groups

end Cohort
