/-!
# Blanks and pieces

Texts are cut and trimmed as lists of characters. `isBlank` is the Unicode property White_Space,
`trim` drops blanks at both ends, and `pieces` cuts a text at every occurrence of one character:
`pieces_ne_nil` says that there is always a piece, `flatten_pieces` that nothing is lost.
-/

namespace TypeBundle.Text

/-- The characters with the property White_Space. -/
def isBlank (c : Char) : Bool :=
  let n := c.toNat
  (0x09 ≤ n && n ≤ 0x0D) || n == 0x20 || n == 0x85 || n == 0xA0 || n == 0x1680 ||
  (0x2000 ≤ n && n ≤ 0x200A) || n == 0x2028 || n == 0x2029 || n == 0x202F || n == 0x205F || n == 0x3000

/-- The text without the blanks at its ends. -/
def trim (cs : List Char) : List Char :=
  ((cs.dropWhile isBlank).reverse.dropWhile isBlank).reverse

/-- The pieces between the occurrences of `separator`; one piece if there are none. -/
def pieces (separator : Char) : List Char → List (List Char)
  | [] => [[]]
  | c :: cs =>
    if c = separator then [] :: pieces separator cs
    else match pieces separator cs with
      | [] => [[c]]
      | p :: ps => (c :: p) :: ps

theorem pieces_ne_nil (separator : Char) (cs : List Char) : pieces separator cs ≠ [] := by
  cases cs with
  | nil => simp [pieces]
  | cons c cs => simp only [pieces]; split <;> try split
                 all_goals simp

theorem flatten_pieces (separator : Char) (cs : List Char) :
    (pieces separator cs).flatten = cs.filter (· ≠ separator) := by
  induction cs with
  | nil => simp [pieces]
  | cons c cs ih =>
    simp only [pieces]
    split
    · next h => simp [h, ih]
    · next h =>
      split
      · next hp => exact absurd hp (pieces_ne_nil separator cs)
      · next p ps hp => rw [hp] at ih; simp_all

/-- What stands before and after the last occurrence of `separator`, if it occurs. -/
def cutLast? (separator : Char) (cs : List Char) : Option (List Char × List Char) :=
  let tail := cs.reverse.takeWhile (· ≠ separator)
  match cs.reverse.dropWhile (· ≠ separator) with
  | [] => none
  | _ :: before => some (before.reverse, tail.reverse)

theorem eq_of_cutLast? {separator : Char} {cs before after : List Char}
    (h : cutLast? separator cs = some (before, after)) : cs = before ++ separator :: after := by
  unfold cutLast? at h
  split at h
  · cases h
  · next c rest hd =>
    have hc : c = separator := by
      have := List.head?_dropWhile_not (fun x : Char => decide (x ≠ separator)) cs.reverse
      rw [hd] at this
      simpa using this
    have hs := List.takeWhile_append_dropWhile (p := fun x : Char => decide (x ≠ separator)) (l := cs.reverse)
    rw [hd] at hs
    have := congrArg List.reverse hs
    simp only [Option.some.injEq, Prod.mk.injEq] at h
    obtain ⟨rfl, rfl⟩ := h
    subst hc
    simpa using this.symm

end TypeBundle.Text
