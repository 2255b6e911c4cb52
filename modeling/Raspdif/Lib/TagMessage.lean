import Mathlib.Algebra.Group.Nat.Defs
import Mathlib.Data.List.Basic

/-!
# Messages made of tags

A message is a buffer of words of 32 bits: its length in bytes, a code, the tags one after the
other, and a word of zeros.  A tag is its identifier, the length of its values in bytes, a
code and the values.

`decode_eq_some_iff` says that the buffers that are read as a message are the ones written
for it, and no others.
-/

namespace TagMessage

abbrev Word := BitVec 32

structure Tag where
  identifier : Word
  code : Word
  values : List Word
  deriving DecidableEq, Repr

structure Message where
  code : Word
  tags : List Tag
  deriving DecidableEq, Repr

/-- The length of so many words. -/
def bytes (count : Nat) : Word := BitVec.ofNat 32 (4 * count)

/-! ## Writing -/

def Tag.encode (tag : Tag) : List Word :=
  tag.identifier :: bytes tag.values.length :: tag.code :: tag.values

/-- The tags with the word behind them. -/
def encodeTags (tags : List Tag) : List Word := tags.flatMap Tag.encode ++ [0]

def Message.encode (message : Message) : List Word :=
  bytes ((encodeTags message.tags).length + 2) :: message.code :: encodeTags message.tags

/-! ## Reading -/

/-- The tags of a buffer of at most so many words. -/
def decodeTags : Nat → List Word → Option (List Tag)
  | 0, _ => none
  | _ + 1, [] => none
  | _ + 1, [last] => if last = 0 then some [] else none
  | _ + 1, [_, _] => none
  | most + 1, identifier :: length :: code :: rest =>
      if identifier ≠ 0 ∧ length.toNat % 4 = 0 ∧ length.toNat / 4 ≤ rest.length then
        (decodeTags most (rest.drop (length.toNat / 4))).map
          (⟨identifier, code, rest.take (length.toNat / 4)⟩ :: ·)
      else none

def decode : List Word → Option Message
  | length :: code :: rest =>
      if length.toNat = 4 * (rest.length + 2) then
        (decodeTags rest.length rest).map (Message.mk code)
      else none
  | _ => none

/-! ## Both ways -/

/-- No tag is taken for the end, and the length fits its word. -/
structure Message.Encodable (message : Message) : Prop where
  identifiers : ∀ tag ∈ message.tags, tag.identifier ≠ 0
  fits : 4 * ((encodeTags message.tags).length + 2) < 2 ^ 32

theorem toNat_bytes {count : Nat} (fits : 4 * count < 2 ^ 32) :
    (bytes count).toNat = 4 * count := by
  rw [bytes, BitVec.toNat_ofNat, Nat.mod_eq_of_lt fits]

theorem length_encode (tag : Tag) : tag.encode.length = tag.values.length + 3 := rfl

theorem encodeTags_cons (tag : Tag) (tags : List Tag) :
    encodeTags (tag :: tags) = tag.encode ++ encodeTags tags := by
  rw [encodeTags, List.flatMap_cons, List.append_assoc]
  rfl

theorem decodeTags_encodeTags {tags : List Tag} (identifiers : ∀ tag ∈ tags, tag.identifier ≠ 0)
    (fits : 4 * (encodeTags tags).length < 2 ^ 32) {most : Nat}
    (enough : (encodeTags tags).length ≤ most) :
    decodeTags most (encodeTags tags) = some tags := by
  induction tags generalizing most with
  | nil =>
      obtain ⟨most, rfl⟩ := Nat.exists_eq_add_one_of_ne_zero (Nat.ne_of_gt enough)
      rfl
  | cons tag tags ih =>
      obtain ⟨here, later⟩ := List.forall_mem_cons.mp identifiers
      rw [encodeTags_cons, List.length_append, length_encode] at fits enough
      obtain ⟨most, rfl⟩ := Nat.exists_eq_add_one_of_ne_zero
        (show most ≠ 0 by omega)
      have length : (bytes tag.values.length).toNat = 4 * tag.values.length :=
        toNat_bytes (by omega)
      have count : (bytes tag.values.length).toNat / 4 = tag.values.length := by omega
      have whole : (bytes tag.values.length).toNat % 4 = 0 := by omega
      have inside : tag.values.length ≤ (tag.values ++ encodeTags tags).length := by
        rw [List.length_append]
        exact Nat.le_add_right _ _
      rw [encodeTags_cons]
      rw [Tag.encode, List.cons_append, List.cons_append, List.cons_append, decodeTags, count,
        if_pos ⟨here, whole, inside⟩, List.drop_left, List.take_left,
        ih later (by omega) (by omega)]
      rfl

theorem encodeTags_of_decodeTags {most : Nat} {words : List Word} {tags : List Tag}
    (decoded : decodeTags most words = some tags) :
    (∀ tag ∈ tags, tag.identifier ≠ 0) ∧ encodeTags tags = words := by
  induction most, words using decodeTags.induct generalizing tags with
  | case1 | case2 | case5 => cases decoded
  | case3 most =>
      rw [decodeTags, if_pos rfl] at decoded
      obtain rfl := Option.some.inj decoded
      exact ⟨List.forall_mem_nil _, rfl⟩
  | case4 most last other =>
      rw [decodeTags, if_neg other] at decoded
      cases decoded
  | case6 most identifier length code rest valid ih =>
      rw [decodeTags, if_pos valid] at decoded
      obtain ⟨named, whole, inside⟩ := valid
      obtain ⟨others, found, rfl⟩ := Option.map_eq_some_iff.mp decoded
      obtain ⟨identifiers, encoded⟩ := ih found
      refine ⟨List.forall_mem_cons.mpr ⟨named, identifiers⟩, ?_⟩
      have count : bytes (rest.take (length.toNat / 4)).length = length := by
        rw [bytes, List.length_take, Nat.min_eq_left inside, Nat.mul_div_cancel' (by omega),
          BitVec.ofNat_toNat, BitVec.setWidth_eq]
      rw [encodeTags_cons, encoded, Tag.encode, count]
      simp only [List.cons_append, List.take_append_drop]
  | case7 most identifier length code rest invalid =>
      rw [decodeTags, if_neg invalid] at decoded
      cases decoded

theorem decode_encode {message : Message} (encodable : message.Encodable) :
    decode message.encode = some message := by
  obtain ⟨identifiers, fits⟩ := encodable
  rw [Message.encode, decode, toNat_bytes fits, if_pos rfl,
    decodeTags_encodeTags identifiers (by omega) (Nat.le_refl _)]
  rfl

/-- **A buffer is read as a message exactly when it is the one written for it.** -/
theorem decode_eq_some_iff {words : List Word} {message : Message} :
    decode words = some message ↔ message.Encodable ∧ message.encode = words := by
  constructor
  · intro decoded
    match words, decoded with
    | length :: code :: rest, decoded =>
        rw [decode] at decoded
        split at decoded
        case isTrue whole =>
          obtain ⟨tags, found, rfl⟩ := Option.map_eq_some_iff.mp decoded
          obtain ⟨identifiers, encoded⟩ := encodeTags_of_decodeTags found
          refine ⟨⟨identifiers, ?_⟩, ?_⟩
          · rw [encoded, ← whole]
            exact length.isLt
          · rw [Message.encode, encoded, bytes, ← whole, BitVec.ofNat_toNat, BitVec.setWidth_eq]
        case isFalse => cases decoded
  · rintro ⟨encodable, rfl⟩
    exact decode_encode encodable

end TagMessage
