import WaitingRoom.Text.Lines
import WaitingRoom.Text.Rewriting

/-!
# Segments

A text is split at a separator, and its empty and its dot segments say nothing. The segment form
(`segmentForm`) leaves them out in one pass. Squeezing the separator and contracting the dot
segments, in any number of rounds, keeps the segment form, and what can be tidied no further is its
own segment form once a dot at its end is dropped (`tidied_eq_segmentForm`).
-/

set_option autoImplicit false

namespace WaitingRoom.Text

variable {α β : Type} [DecidableEq α] [DecidableEq β]

/-- A segment that says something. -/
def significant (y : α) (segment : List α) : Bool := segment ≠ [] ∧ segment ≠ [y]

/-- Segments joined again: those behind the first only where they say something, and a separator at
the end where the last does not. -/
def joinSegments (x y : α) : List (List α) → List α
  | [] => []
  | first :: rest =>
      first ++ (rest.filter (significant y)).flatMap (x :: ·) ++
        if rest.getLast?.any fun last => !significant y last then [x] else []

/-- The text without its empty and its dot segments. -/
def segmentForm (x y : α) (text : List α) : List α := joinSegments x y (text.splitOn x)

/-! ## Segments that say nothing -/

/-- A segment between others may be left out. -/
theorem joinSegments_insert {x y : α} {before after : List (List α)} {segment : List α}
    (starts : before ≠ []) (ends : after ≠ []) (silent : significant y segment = false) :
    joinSegments x y (before ++ segment :: after) = joinSegments x y (before ++ after) := by
  cases before with
  | nil => exact absurd rfl starts
  | cons first before =>
      have last : (before ++ segment :: after).getLast? = (before ++ after).getLast? := by
        rw [List.getLast?_append_of_ne_nil _ (List.cons_ne_nil _ _),
          List.getLast?_cons_of_ne_nil ends, List.getLast?_append_of_ne_nil _ ends]
      rw [List.cons_append, List.cons_append, joinSegments, joinSegments, last, List.filter_append,
        List.filter_append, List.filter_cons, silent, if_neg Bool.false_ne_true]

/-- A last segment may be replaced by another that says nothing either. -/
theorem joinSegments_last {x y : α} {before : List (List α)} {segment other : List α}
    (starts : before ≠ []) (silent : significant y segment = false)
    (silentToo : significant y other = false) :
    joinSegments x y (before ++ [segment]) = joinSegments x y (before ++ [other]) := by
  cases before with
  | nil => exact absurd rfl starts
  | cons first before =>
      simp [joinSegments, List.filter_append, silent, silentToo]

section Form

variable {x y : α}

theorem significant_nil (y : α) : significant y [] = false := by simp [significant]

theorem significant_dot (y : α) : significant y [y] = false := by simp [significant]

/-- Two separators count as one. -/
theorem segmentForm_double (before after : List α) :
    segmentForm x y (before ++ x :: x :: after) = segmentForm x y (before ++ x :: after) := by
  rw [segmentForm, segmentForm, List.splitOn_append_cons_self, List.splitOn_append_cons_self,
    List.splitOn_cons_eq_if_modifyHead, if_pos (by simp)]
  exact joinSegments_insert (List.splitOn_ne_nil _ _) (List.splitOn_ne_nil _ _) (significant_nil y)

/-- A dot between separators counts as nothing. -/
theorem segmentForm_dot (apart : y ≠ x) (before after : List α) :
    segmentForm x y (before ++ x :: y :: x :: after) = segmentForm x y (before ++ x :: after) := by
  have plain : x ∉ [y] := by simpa using apart.symm
  have dot : (y :: x :: after).splitOn x = [y] :: after.splitOn x :=
    List.splitOn_append_cons_self_of_not_mem plain after
  rw [segmentForm, segmentForm, List.splitOn_append_cons_self, List.splitOn_append_cons_self, dot]
  exact joinSegments_insert (List.splitOn_ne_nil _ _) (List.splitOn_ne_nil _ _) (significant_dot y)

/-- A dot at the end counts as nothing. -/
theorem segmentForm_dot_end (apart : y ≠ x) (before : List α) :
    segmentForm x y (before ++ [x, y]) = segmentForm x y (before ++ [x]) := by
  have dot : [y].splitOn x = [[y]] := List.splitOn_eq_singleton (by simpa using apart.symm)
  rw [segmentForm, segmentForm, List.splitOn_append_cons_self, List.splitOn_append_cons_self, dot,
    List.splitOn_nil]
  exact joinSegments_last (List.splitOn_ne_nil _ _) (significant_dot y) (significant_nil y)

/-! ## The rewriting steps -/

theorem segmentForm_squeeze (before text : List α) :
    segmentForm x y (before ++ squeeze x text) = segmentForm x y (before ++ text) := by
  induction text generalizing before with
  | nil => rfl
  | cons a rest ih =>
      rw [squeeze]
      split_ifs with run
      · obtain ⟨rfl, next⟩ := run
        obtain ⟨more, rfl⟩ := List.head?_eq_some_iff.mp next
        rw [ih, segmentForm_double]
      · have later := ih (before ++ [a])
        rwa [List.append_assoc, List.append_assoc] at later

theorem segmentForm_contract (apart : y ≠ x) (before text : List α) :
    segmentForm x y (before ++ contract x y text) = segmentForm x y (before ++ text) := by
  fun_induction contract x y text generalizing before with
  | case1 a b c rest same ih =>
      obtain ⟨rfl, rfl, rfl⟩ := same
      have later := ih (before ++ [c])
      rw [List.append_assoc, List.append_assoc] at later
      rw [segmentForm_dot apart]
      exact later
  | case2 a b c rest other ih =>
      have later := ih (before ++ [a])
      rwa [List.append_assoc, List.append_assoc] at later
  | case3 short => rfl

theorem segmentForm_tidy (apart : y ≠ x) (text : List α) :
    segmentForm x y (tidy x y text) = segmentForm x y text :=
  (segmentForm_contract apart [] (squeeze x text)).trans (segmentForm_squeeze [] text)

/-- **Tidying keeps the segment form**, however often it is done. -/
theorem segmentForm_iterate (apart : y ≠ x) (rounds : ℕ) (text : List α) :
    segmentForm x y ((tidy x y)^[rounds] text) = segmentForm x y text := by
  induction rounds generalizing text with
  | zero => rfl
  | succ rounds ih => rw [Function.iterate_succ_apply, ih, segmentForm_tidy apart]

/-! ## Texts that cannot be tidied further -/

theorem squeeze_stable_tail {a : α} {rest : List α} (stable : squeeze x (a :: rest) = a :: rest) :
    squeeze x rest = rest := by
  rw [squeeze] at stable
  split_ifs at stable
  · have short := (squeeze_sublist x rest).length_le
    rw [stable, List.length_cons] at short
    omega
  · exact (List.cons.inj stable).2

theorem contract_stable_tail {a : α} {rest : List α}
    (stable : contract x y (a :: rest) = a :: rest) : contract x y rest = rest := by
  match rest with
  | [] => rfl
  | [b] => rfl
  | b :: c :: rest =>
      rw [contract] at stable
      split_ifs at stable
      · have short := (contract_sublist x y rest).length_le
        rw [(List.cons.inj stable).2, List.length_cons, List.length_cons] at short
        omega
      · exact (List.cons.inj stable).2

/-- A text in which neither step finds anything to do. -/
structure Tidied (x y : α) (text : List α) : Prop where
  noDouble : ∀ before after, text ≠ before ++ x :: x :: after
  noDot : ∀ before after, text ≠ before ++ x :: y :: x :: after

theorem tidied_of_stable {text : List α} (stable : tidy x y text = text) : Tidied x y text := by
  have squeezed : squeeze x text = text := by
    refine (squeeze_sublist x text).eq_of_length_le ?_
    have short := (contract_sublist x y (squeeze x text)).length_le
    rwa [show contract x y (squeeze x text) = text from stable] at short
  have contracted : contract x y text = text := by
    rw [tidy, squeezed] at stable
    exact stable
  clear stable
  constructor
  · rintro before after rfl
    induction before with
    | nil =>
        rw [List.nil_append, squeeze_cons_cons] at squeezed
        have short := (squeeze_sublist x (x :: after)).length_le
        rw [squeezed, List.length_cons] at short
        omega
    | cons a before ih =>
        have squeezedTail := squeeze_stable_tail squeezed
        have contractedTail := contract_stable_tail contracted
        exact ih squeezedTail contractedTail
  · rintro before after rfl
    induction before with
    | nil =>
        rw [List.nil_append, contract_match] at contracted
        have short := (contract_sublist x y after).length_le
        rw [(List.cons.inj contracted).2, List.length_cons, List.length_cons] at short
        omega
    | cons a before ih =>
        have squeezedTail := squeeze_stable_tail squeezed
        have contractedTail := contract_stable_tail contracted
        exact ih squeezedTail contractedTail

omit [DecidableEq α] in
/-- Segments with a separator in front of each but the first. -/
theorem intercalate_eq_flatMap (first : List α) (rest : List (List α)) :
    [x].intercalate (first :: rest) = first ++ rest.flatMap (x :: ·) := by
  induction rest generalizing first with
  | nil => simp
  | cons next rest ih =>
      rw [List.intercalate_cons_of_ne_nil (List.cons_ne_nil _ _), ih, List.flatMap_cons]
      simp

omit [DecidableEq α] in
/-- Every text is its segments. -/
theorem exists_segments [DecidableEq α] (x : α) (text : List α) :
    ∃ first rest, text.splitOn x = first :: rest ∧ text = first ++ rest.flatMap (x :: ·) := by
  obtain ⟨first, rest, cut⟩ := List.exists_cons_of_ne_nil (List.splitOn_ne_nil x text)
  refine ⟨first, rest, cut, ?_⟩
  rw [← intercalate_eq_flatMap, ← cut, List.intercalate_splitOn]

/-- Between two separators of a tidied text stands a segment that says something. -/
theorem filter_inner {first last : List α} {inner : List (List α)}
    (tidied : Tidied x y (first ++ (inner ++ [last]).flatMap (x :: ·))) :
    inner.filter (significant y) = inner := by
  refine List.filter_eq_self.mpr fun segment mem => ?_
  obtain ⟨before, after, rfl⟩ := List.append_of_mem mem
  obtain ⟨next, more, later⟩ : ∃ next more, after ++ [last] = next :: more :=
    List.exists_cons_of_ne_nil (by simp)
  have placed : first ++ (before ++ segment :: after ++ [last]).flatMap (x :: ·)
      = first ++ before.flatMap (x :: ·) ++ x :: (segment ++ x :: (next ++
        more.flatMap (x :: ·))) := by
    rw [List.append_assoc before, List.cons_append, later]
    simp
  rw [significant, decide_eq_true_eq]
  constructor
  · rintro rfl
    exact tidied.noDouble _ _ placed
  · rintro rfl
    exact tidied.noDot _ _ placed

/-- A tidied text that does not end with a dot segment is its own segment form. -/
theorem segmentForm_of_tidied {text : List α} (tidied : Tidied x y text)
    (ends : ¬ [x, y] <:+ text) : segmentForm x y text = text := by
  obtain ⟨first, rest, cut, whole⟩ := exists_segments x text
  rw [segmentForm, cut, joinSegments]
  rcases List.eq_nil_or_concat rest with rfl | ⟨inner, last, rfl⟩
  · simpa using whole.symm
  rw [List.concat_eq_append] at whole ⊢
  have notDot : last ≠ [y] := by
    rintro rfl
    exact ends ⟨first ++ inner.flatMap (x :: ·), by rw [whole]; simp⟩
  rw [List.filter_append, filter_inner (whole ▸ tidied),
    List.getLast?_append_of_ne_nil _ (List.cons_ne_nil _ _)]
  by_cases empty : last = []
  · subst empty
    simpa [significant] using whole.symm
  · simpa [significant, empty, notDot] using whole.symm

/-- **A text that cannot be tidied further is its own segment form** once the dot at its end is
dropped. -/
theorem tidied_eq_segmentForm (apart : y ≠ x) {text : List α} (stable : tidy x y text = text) :
    replaceSuffix [x, y] [x] text = segmentForm x y text := by
  have tidied := tidied_of_stable stable
  by_cases ends : [x, y] <:+ text
  · obtain ⟨before, rfl⟩ := ends
    rw [replaceSuffix_append, segmentForm_dot_end apart]
    refine (segmentForm_of_tidied ⟨fun front back split => ?_, fun front back split => ?_⟩ ?_).symm
    · refine tidied.noDouble front (back ++ [y]) ?_
      have longer := congrArg (· ++ [y]) split
      simpa using longer
    · refine tidied.noDot front (back ++ [y]) ?_
      have longer := congrArg (· ++ [y]) split
      simpa using longer
    · rintro ⟨front, split⟩
      have lasts := congrArg List.getLast? split
      simp at lasts
      exact apart lasts
  · rw [replaceSuffix_of_not ends, segmentForm_of_tidied tidied ends]

/-- **The segment form only drops letters.** -/
theorem segmentForm_sublist (apart : y ≠ x) (text : List α) : (segmentForm x y text).Sublist text := by
  have stable := iterate_stable (tidy_shortens x y) (Nat.le_refl text.length)
  have drops : ∀ text : List α, (tidy x y text).Sublist text := fun text =>
    (contract_sublist x y _).trans (squeeze_sublist x text)
  rw [← segmentForm_iterate apart text.length, ← tidied_eq_segmentForm apart stable]
  refine List.Sublist.trans ?_ (iterate_sublist drops text.length text)
  by_cases ends : [x, y] <:+ (tidy x y)^[text.length] text
  · obtain ⟨before, split⟩ := ends
    rw [← split, replaceSuffix_append]
    exact (List.Sublist.refl before).append (List.sublist_append_left [x] [y])
  · rw [replaceSuffix_of_not ends]

omit [DecidableEq α] in
/-- The last separator of a text. -/
theorem exists_last_separator {text : List α} (mem : x ∈ text) :
    ∃ before last, text = before ++ x :: last ∧ x ∉ last := by
  obtain ⟨after, before, split, none⟩ := List.eq_append_cons_of_mem (List.mem_reverse.mpr mem)
  refine ⟨before.reverse, after.reverse, ?_, fun again => none (List.mem_reverse.mp again)⟩
  have forward := congrArg List.reverse split
  simpa using forward

/-- What stands behind the last separator of a tidied text starts what is left of its continuations. -/
theorem prefix_joined {last : List α} (notDot : last ≠ [y]) (first : List α)
    (more : List (List α)) :
    x :: last <+: (((last ++ first) :: more).filter (significant y)).flatMap (x :: ·) ++
      if ((last ++ first) :: more).getLast?.any fun last => !significant y last then [x] else [] := by
  by_cases empty : last = []
  · subst empty
    cases kept : (([] ++ first) :: more).filter (significant y) with
    | nil =>
        have silent := List.filter_eq_nil_iff.mp kept _ (List.getLast_mem (List.cons_ne_nil _ more))
        rw [List.getLast?_eq_getLast_of_ne_nil (List.cons_ne_nil _ _), Option.any_some, if_pos]
        · exact List.prefix_refl _
        · simpa using silent
    | cons segment others => exact ⟨_, rfl⟩
  · have kept : significant y (last ++ first) = true := by
      rw [significant, decide_eq_true_eq]
      refine ⟨fun none => empty (List.append_eq_nil_iff.mp none).1, fun dot => ?_⟩
      cases last with
      | nil => exact empty rfl
      | cons a last =>
          obtain ⟨rfl, none⟩ := List.cons.inj dot
          rw [(List.append_eq_nil_iff.mp none).1] at notDot
          exact notDot rfl
    rw [List.filter_cons, if_pos kept, List.flatMap_cons, List.cons_append, List.cons_append,
      List.append_assoc, List.append_assoc]
    exact ⟨_, rfl⟩

/-- **A tidied text that does not end with a dot segment starts the segment form of all its
continuations.** -/
theorem prefix_segmentForm {text : List α} (tidied : Tidied x y text) (ends : ¬ [x, y] <:+ text)
    (separated : x ∈ text) (after : List α) : text <+: segmentForm x y (text ++ after) := by
  obtain ⟨before, last, rfl, plain⟩ := exists_last_separator separated
  obtain ⟨first, inner, cut, whole⟩ := exists_segments x before
  obtain ⟨next, more, follows, -⟩ := exists_segments x after
  have kept : inner.filter (significant y) = inner := by
    have placed : before ++ x :: last = first ++ (inner ++ [last]).flatMap (x :: ·) := by
      conv_lhs => rw [whole]
      simp
    exact filter_inner (placed ▸ tidied)
  have notDot : last ≠ [y] := by
    rintro rfl
    exact ends ⟨before, rfl⟩
  have split : (before ++ x :: last ++ after).splitOn x
      = first :: (inner ++ ((last ++ next) :: more)) := by
    rw [List.append_assoc, List.cons_append, List.splitOn_append_cons_self, cut,
      splitOn_append_of_not_mem plain, follows]
    rfl
  obtain ⟨rest, joined⟩ := prefix_joined (x := x) notDot next more
  rw [segmentForm, split, joinSegments, List.filter_append, kept,
    List.getLast?_append_of_ne_nil _ (List.cons_ne_nil _ _), List.flatMap_append]
  refine ⟨rest, ?_⟩
  conv_lhs => rw [whole]
  rw [List.append_assoc, joined]
  simp

end Form

/-! ## Renaming -/

/-- A renaming that keeps the separator apart commutes with the split. -/
theorem splitOn_map {f : α → β} {x : α} (apart : ∀ a, f a = f x ↔ a = x) (text : List α) :
    (text.map f).splitOn (f x) = (text.splitOn x).map (List.map f) := by
  induction text with
  | nil => rfl
  | cons a rest ih =>
      rw [List.map_cons, List.splitOn_cons_eq_if_modifyHead, List.splitOn_cons_eq_if_modifyHead, ih]
      by_cases same : a = x
      · rw [if_pos (by simp [same]), if_pos (by simp [same])]
        rfl
      · rw [if_neg (by simpa [apart] using same), if_neg (by simpa using same)]
        cases rest.splitOn x <;> rfl

theorem map_segmentForm {f : α → β} {x y : α} (apartX : ∀ a, f a = f x ↔ a = x)
    (apartY : ∀ a, f a = f y ↔ a = y) (text : List α) :
    (segmentForm x y text).map f = segmentForm (f x) (f y) (text.map f) := by
  have silent : ∀ segment : List α,
      significant (f y) (segment.map f) = significant y segment := by
    intro segment
    have dot : segment.map f = [f y] ↔ segment = [y] := by
      have apart : ∀ letter ∈ [y], ∀ a, f a = f letter → a = letter := by
        intro letter mem a equal
        rw [List.mem_singleton.mp mem] at equal ⊢
        exact (apartY a).mp equal
      exact ⟨fun same => eq_of_map_eq apart same, fun same => same ▸ rfl⟩
    simp [significant, dot]
  rw [segmentForm, segmentForm, splitOn_map apartX]
  cases text.splitOn x with
  | nil => rfl
  | cons first rest =>
      have filtered : (rest.map (List.map f)).filter (significant (f y))
          = (rest.filter (significant y)).map (List.map f) := by
        rw [List.filter_map]
        exact congrArg _ (List.filter_congr fun segment _ => silent segment)
      have last : ((rest.map (List.map f)).getLast?.any fun last => !significant (f y) last)
          = rest.getLast?.any fun last => !significant y last := by
        rw [List.getLast?_map]
        cases rest.getLast? with
        | none => rfl
        | some last => simp [silent]
      rw [joinSegments, List.map_cons, joinSegments, filtered, last, List.map_append,
        List.map_append, List.map_flatMap, List.flatMap_map]
      split_ifs <;> simp

end WaitingRoom.Text
