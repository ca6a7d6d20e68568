/-!
# Slices by byte offsets

Offsets into a text count the bytes of its UTF-8 form. A slice exists only if both offsets lie in
the text and on the boundary between two characters.

## Main definitions

* `byteLength`: the number of bytes of a text
* `dropBytes?`, `takeBytes?`: the text behind an offset and before it
* `slice?`: the text between two offsets

## Main results

* `dropBytes?_append`, `takeBytes?_append`: the boundary between two texts is one
* `slice?_eq_some_iff`: a slice is the part of a text between two boundaries
-/

namespace Lox.Text

/-- The number of bytes of a text. -/
def byteLength : List Char → Nat
  | [] => 0
  | c :: rest => c.utf8Size + byteLength rest

@[simp] theorem byteLength_nil : byteLength [] = 0 := rfl

@[simp] theorem byteLength_cons (c : Char) (text : List Char) :
    byteLength (c :: text) = c.utf8Size + byteLength text := rfl

@[simp] theorem byteLength_append (s t : List Char) :
    byteLength (s ++ t) = byteLength s + byteLength t := by
  induction s with
  | nil => simp
  | cons c s ih => simp [ih, Nat.add_assoc]

/-- The text behind an offset. -/
def dropBytes? (offset : Nat) : List Char → Option (List Char)
  | [] => if offset = 0 then some [] else none
  | c :: rest =>
    if offset = 0 then some (c :: rest)
    else if c.utf8Size ≤ offset then dropBytes? (offset - c.utf8Size) rest
    else none

/-- The text before an offset. -/
def takeBytes? (offset : Nat) : List Char → Option (List Char)
  | [] => if offset = 0 then some [] else none
  | c :: rest =>
    if offset = 0 then some []
    else if c.utf8Size ≤ offset then (takeBytes? (offset - c.utf8Size) rest).map (c :: ·)
    else none

/-- The text from one offset up to another. -/
def slice? (start stop : Nat) (text : List Char) : Option (List Char) :=
  if start ≤ stop then (dropBytes? start text).bind (takeBytes? (stop - start)) else none

@[simp] theorem dropBytes?_zero (text : List Char) : dropBytes? 0 text = some text := by
  cases text <;> rfl

@[simp] theorem takeBytes?_zero (text : List Char) : takeBytes? 0 text = some [] := by
  cases text <;> rfl

theorem dropBytes?_append (s t : List Char) : dropBytes? (byteLength s) (s ++ t) = some t := by
  induction s with
  | nil => simp
  | cons c s ih =>
    simp [dropBytes?, ih, Nat.ne_of_gt c.utf8Size_pos]

theorem takeBytes?_append (s t : List Char) : takeBytes? (byteLength s) (s ++ t) = some s := by
  induction s with
  | nil => simp
  | cons c s ih =>
    simp [takeBytes?, ih, Nat.ne_of_gt c.utf8Size_pos]

theorem dropBytes?_eq_some_iff {offset : Nat} {text rest : List Char} :
    dropBytes? offset text = some rest ↔
      ∃ before, text = before ++ rest ∧ byteLength before = offset := by
  constructor
  · intro h
    induction text generalizing offset with
    | nil =>
      unfold dropBytes? at h
      split at h
      · next hzero => exact ⟨[], Option.some.inj h, hzero.symm⟩
      · cases h
    | cons c text ih =>
      unfold dropBytes? at h
      split at h
      · next hzero => exact ⟨[], Option.some.inj h, hzero.symm⟩
      · split at h
        · next hle =>
          obtain ⟨before, rfl, hbefore⟩ := ih h
          refine ⟨c :: before, rfl, ?_⟩
          rw [byteLength_cons, hbefore]
          omega
        · cases h
  · rintro ⟨before, rfl, rfl⟩
    exact dropBytes?_append before rest

theorem takeBytes?_eq_some_iff {offset : Nat} {text taken : List Char} :
    takeBytes? offset text = some taken ↔
      ∃ after, text = taken ++ after ∧ byteLength taken = offset := by
  constructor
  · intro h
    induction text generalizing offset taken with
    | nil =>
      unfold takeBytes? at h
      split at h
      · next hzero =>
        obtain rfl := Option.some.inj h
        exact ⟨[], rfl, hzero.symm⟩
      · cases h
    | cons c text ih =>
      unfold takeBytes? at h
      split at h
      · next hzero =>
        obtain rfl := Option.some.inj h
        exact ⟨c :: text, rfl, hzero.symm⟩
      · split at h
        · next hle =>
          obtain ⟨front, hfront, rfl⟩ := Option.map_eq_some_iff.mp h
          obtain ⟨after, rfl, hlength⟩ := ih hfront
          refine ⟨after, rfl, ?_⟩
          rw [byteLength_cons, hlength]
          omega
        · cases h
  · rintro ⟨after, rfl, rfl⟩
    exact takeBytes?_append taken after

/-- **A slice is the part of a text between two boundaries.** -/
theorem slice?_eq_some_iff {start stop : Nat} {text chars : List Char} :
    slice? start stop text = some chars ↔ ∃ before after, text = before ++ (chars ++ after) ∧
      byteLength before = start ∧ byteLength before + byteLength chars = stop := by
  unfold slice?
  constructor
  · intro h
    split at h
    · next hle =>
      obtain ⟨rest, hrest, hchars⟩ := Option.bind_eq_some_iff.mp h
      obtain ⟨before, rfl, rfl⟩ := dropBytes?_eq_some_iff.mp hrest
      obtain ⟨after, rfl, hlength⟩ := takeBytes?_eq_some_iff.mp hchars
      exact ⟨before, after, rfl, rfl, by omega⟩
    · cases h
  · rintro ⟨before, after, rfl, rfl, rfl⟩
    rw [if_pos (Nat.le_add_right _ _), dropBytes?_append, Option.bind_some,
      Nat.add_sub_cancel_left, takeBytes?_append]

theorem slice?_append (r s t : List Char) :
    slice? (byteLength r) (byteLength r + byteLength s) (r ++ (s ++ t)) = some s := by
  simp [slice?, dropBytes?_append, takeBytes?_append]

end Lox.Text
