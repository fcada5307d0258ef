import MakeOutline.Proofs.Expansion

/-!
# Texts in the order of their bytes

UTF-8 keeps the order of the characters: where two encodings first differ, the one of the lesser
character has the lesser byte, and neither is the beginning of the other.  So texts compare by
their bytes as they compare by their characters.
-/

namespace MakeOutline

/-- What two lists begin with in common does not tell their order. -/
theorem compareLex_append_self {α : Type} {order : α → α → Ordering}
    (hself : ∀ a, order a a = .eq) (front first second : List α) :
    (front ++ first).compareLex order (front ++ second) = first.compareLex order second := by
  induction front with
  | nil => rfl
  | cons a front ih =>
      rw [List.cons_append, List.cons_append, List.compareLex_cons_cons, ih, hself,
        Ordering.eq_then]

theorem isLE_total {α : Type} {order : α → α → Ordering} [Std.OrientedCmp order] (a b : α) :
    ((order a b).isLE || (order b a).isLE) = true := by
  have hswap : order b a = (order a b).swap := Std.OrientedCmp.eq_swap
  rw [hswap]
  cases order a b <;> rfl

namespace Text

/-- The order of two texts by their bytes. -/
def compareBytes (s t : Text) : Ordering := compare s.bytes.data.toList t.bytes.data.toList

theorem toList_bytes_cons (c : Char) (t : Text) :
    (bytes (c :: t)).data.toList = String.utf8EncodeChar c ++ (bytes t).data.toList := by
  rw [bytes_eq, bytes_eq, List.utf8Encode, List.utf8Encode, List.toList_data_toByteArray,
    List.toList_data_toByteArray, List.flatMap_cons]

/-- A number below 128 is its own byte.  Above, the last bytes carry the digits in base 64, and
the first byte tells by its size how many they are. -/
inductive Encodes : Nat → List UInt8 → Prop where
  | one {n : Nat} (hn : n < 128) : Encodes n [UInt8.ofNat n]
  | two {n : Nat} (hlow : 128 ≤ n) (hn : n < 2048) :
    Encodes n [UInt8.ofNat (n / 64 + 192), UInt8.ofNat (n % 64 + 128)]
  | three {n : Nat} (hlow : 2048 ≤ n) (hn : n < 65536) :
    Encodes n [UInt8.ofNat (n / 4096 + 224), UInt8.ofNat (n / 64 % 64 + 128),
      UInt8.ofNat (n % 64 + 128)]
  | four {n : Nat} (hlow : 65536 ≤ n) (hn : n < 1114112) :
    Encodes n [UInt8.ofNat (n / 262144 + 240), UInt8.ofNat (n / 4096 % 64 + 128),
      UInt8.ofNat (n / 64 % 64 + 128), UInt8.ofNat (n % 64 + 128)]

theorem toNat_lt (c : Char) : c.toNat < 1114112 := by
  rcases c.valid with hbelow | hbetween
  · exact Nat.lt_trans hbelow (by decide)
  · exact hbetween.2

theorem encodes_utf8EncodeChar (c : Char) : Encodes c.toNat (String.utf8EncodeChar c) := by
  have hc := toNat_lt c
  -- In the first byte a remainder is taken of what is already below the divisor.
  unfold String.utf8EncodeChar
  change Encodes c.toNat (if c.toNat ≤ 127 then _ else if c.toNat ≤ 2047 then _
    else if c.toNat ≤ 65535 then _ else _)
  split
  next hone => exact .one (by omega)
  next hone =>
    split
    next htwo =>
      change Encodes _ [UInt8.ofNat (c.toNat / 64 % 32 + 192), _]
      rw [Nat.mod_eq_of_lt (by omega : c.toNat / 64 < 32)]
      exact .two (by omega) (by omega)
    next htwo =>
      split
      next hthree =>
        change Encodes _ [UInt8.ofNat (c.toNat / 4096 % 16 + 224), _, _]
        rw [Nat.mod_eq_of_lt (by omega : c.toNat / 4096 < 16)]
        exact .three (by omega) (by omega)
      next hthree =>
        change Encodes _ [UInt8.ofNat (c.toNat / 262144 % 8 + 240), _, _, _]
        rw [Nat.mod_eq_of_lt (by omega : c.toNat / 262144 < 8)]
        exact .four (by omega) hc

theorem compare_ofNat_eq_lt {m n : Nat} (hm : m < 256) (hn : n < 256) :
    compare (UInt8.ofNat m) (UInt8.ofNat n) = .lt ↔ m < n := by
  rw [Std.compare_eq_lt, UInt8.lt_iff_toNat_lt, UInt8.toNat_ofNat_of_lt' hm,
    UInt8.toNat_ofNat_of_lt' hn]

theorem compare_ofNat_eq_eq {m n : Nat} (hm : m < 256) (hn : n < 256) :
    compare (UInt8.ofNat m) (UInt8.ofNat n) = .eq ↔ m = n := by
  rw [Std.compare_eq_iff_eq, ← UInt8.toNat_inj, UInt8.toNat_ofNat_of_lt' hm,
    UInt8.toNat_ofNat_of_lt' hn]

theorem Encodes.compare_append {m n : Nat} {first second : List UInt8} (hfirst : Encodes m first)
    (hsecond : Encodes n second) (hlt : m < n) (s t : List UInt8) :
    compare (first ++ s) (second ++ t) = .lt := by
  -- Encodings of different sizes differ in the first byte, those of one size in some digit.
  cases hfirst <;> cases hsecond <;>
    simp (disch := omega) only [List.cons_append, List.compare_cons_cons, Ordering.then_eq_lt,
      compare_ofNat_eq_lt, compare_ofNat_eq_eq] <;>
    omega

theorem compare_utf8EncodeChar_append {c d : Char} (hlt : c < d) (s t : List UInt8) :
    compare (String.utf8EncodeChar c ++ s) (String.utf8EncodeChar d ++ t) = .lt :=
  (encodes_utf8EncodeChar c).compare_append (encodes_utf8EncodeChar d) hlt s t

/-- Texts compare by their bytes as they compare by their characters. -/
theorem compareBytes_eq (s t : Text) : compareBytes s t = compare s t := by
  unfold compareBytes
  induction s generalizing t with
  | nil =>
      cases t with
      | nil => rfl
      | cons d t =>
          have hne : String.utf8EncodeChar d ≠ [] := String.utf8EncodeChar_ne_nil
          rcases List.exists_cons_of_ne_nil hne with ⟨byte, rest, hd⟩
          rw [toList_bytes_cons, hd]
          rfl
  | cons c s ih =>
      cases t with
      | nil =>
          have hne : String.utf8EncodeChar c ≠ [] := String.utf8EncodeChar_ne_nil
          rcases List.exists_cons_of_ne_nil hne with ⟨byte, rest, hc⟩
          rw [toList_bytes_cons, hc]
          rfl
      | cons d t =>
          rw [toList_bytes_cons, toList_bytes_cons, List.compare_cons_cons]
          cases horder : compare c d with
          | lt =>
              have hlt : c < d := compareOfLessAndEq_eq_lt.mp horder
              rw [compare_utf8EncodeChar_append hlt, Ordering.lt_then]
          | eq =>
              obtain rfl : c = d := Std.LawfulEqOrd.eq_of_compare horder
              have hcommon := compareLex_append_self (fun _ => Std.ReflOrd.compare_self)
                (String.utf8EncodeChar c) (bytes s).data.toList (bytes t).data.toList
              exact hcommon.trans (ih t)
          | gt =>
              have hswapped : compare d c = .lt := Std.OrientedCmp.lt_of_gt horder
              have hlt : d < c := compareOfLessAndEq_eq_lt.mp hswapped
              have hbytes := compare_utf8EncodeChar_append hlt (bytes t).data.toList
                (bytes s).data.toList
              rw [Std.OrientedCmp.gt_of_lt hbytes, Ordering.gt_then]

end Text

end MakeOutline
