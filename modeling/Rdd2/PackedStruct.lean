import Mathlib.Algebra.Group.Nat.Defs
import Mathlib.Algebra.Group.Int.Defs
import Mathlib.Data.List.Forall2
import Mathlib.Tactic.Common

/-!
# Packed structures

Little-endian structures without alignment, as a format string describes them: a
list of codes, each an unsigned or signed integer of some width or so many bytes of
padding. `pack` lays values out and refuses those that do not fit their code;
`unpack` reads them back from exactly as many bytes as the codes ask for.

What fits can be packed (`pack_isSome`), packing loses nothing (`unpack_pack`), and
unpacking loses the padding only (`pack_unpack`).
-/

namespace PackedStruct

/-! ## Little-endian numbers -/

/-- The `n` lowest bytes of `v`, least significant first. -/
def leBytes : Nat → Nat → List UInt8
  | 0, _ => []
  | n + 1, v => UInt8.ofNat v :: leBytes n (v / 256)

def leNat : List UInt8 → Nat
  | [] => 0
  | b :: bs => b.toNat + 256 * leNat bs

@[simp] theorem leBytes_length (n v : Nat) : (leBytes n v).length = n := by
  induction n generalizing v with
  | zero => rfl
  | succ n ih => rw [leBytes, List.length_cons, ih]

theorem leNat_leBytes {n v : Nat} (h : v < 256 ^ n) : leNat (leBytes n v) = v := by
  induction n generalizing v with
  | zero =>
      rw [Nat.pow_zero] at h
      rw [leBytes, leNat]
      omega
  | succ n ih =>
      rw [Nat.pow_succ] at h
      have hdiv : v / 256 < 256 ^ n := Nat.div_lt_of_lt_mul (by omega)
      have hbyte : (UInt8.ofNat v).toNat = v % 256 := UInt8.toNat_ofNat'
      rw [leBytes, leNat, ih hdiv, hbyte]
      omega

theorem leNat_lt (bytes : List UInt8) : leNat bytes < 256 ^ bytes.length := by
  induction bytes with
  | nil => exact Nat.one_pos
  | cons b bs ih =>
      have hb : b.toNat < 256 := b.toNat_lt
      rw [leNat, List.length_cons, Nat.pow_succ]
      omega

theorem leBytes_leNat (bytes : List UInt8) : leBytes bytes.length (leNat bytes) = bytes := by
  induction bytes with
  | nil => rfl
  | cons b bs ih =>
      have hb : b.toNat < 256 := b.toNat_lt
      have hlow : UInt8.ofNat (b.toNat + 256 * leNat bs) = b := by
        refine UInt8.toNat_inj.mp ?_
        rw [UInt8.toNat_ofNat']
        omega
      have hhigh : (b.toNat + 256 * leNat bs) / 256 = leNat bs := by omega
      rw [List.length_cons, leBytes, leNat, hlow, hhigh, ih]

/-! ## Formats -/

inductive Code where
  | unsigned (width : Nat)
  | signed (width : Nat)
  | pad (width : Nat)
  deriving DecidableEq, Repr

def Code.width : Code → Nat
  | .unsigned n | .signed n | .pad n => n

def Code.isPad : Code → Bool
  | .pad _ => true
  | .unsigned _ | .signed _ => false

def size : List Code → Nat
  | [] => 0
  | c :: codes => c.width + size codes

def toSigned (n u : Nat) : Int := if 2 * u < 256 ^ n then u else (u : Int) - (256 ^ n : Nat)

def ofSigned (n : Nat) (v : Int) : Nat := (v % (256 ^ n : Nat)).toNat

def InSigned (n : Nat) (v : Int) : Prop := -(256 ^ n : Nat) ≤ 2 * v ∧ 2 * v < (256 ^ n : Nat)

instance (n : Nat) (v : Int) : Decidable (InSigned n v) := inferInstanceAs (Decidable (_ ∧ _))

def Code.Holds : Code → Int → Prop
  | .unsigned n, v => 0 ≤ v ∧ v < (256 ^ n : Nat)
  | .signed n, v => InSigned n v
  | .pad _, _ => False

/-- The bytes of the values; `none` where one does not fit its code, or there are
too few or too many. -/
def pack : List Code → List Int → Option (List UInt8)
  | [], [] => some []
  | .pad n :: codes, vs => (pack codes vs).map (List.replicate n 0 ++ ·)
  | .unsigned n :: codes, v :: vs =>
      if 0 ≤ v ∧ v < (256 ^ n : Nat) then (pack codes vs).map (leBytes n v.toNat ++ ·) else none
  | .signed n :: codes, v :: vs =>
      if InSigned n v then (pack codes vs).map (leBytes n (ofSigned n v) ++ ·) else none
  | _, _ => none

/-- The values in the bytes; `none` unless they are exactly as many as the codes
ask for. -/
def unpack : List Code → List UInt8 → Option (List Int)
  | [], [] => some []
  | [], _ :: _ => none
  | c :: codes, bytes =>
      if bytes.length < c.width then none
      else
        let rest := unpack codes (bytes.drop c.width)
        match c with
        | .pad _ => rest
        | .unsigned n => rest.map ((leNat (bytes.take n) : Int) :: ·)
        | .signed n => rest.map (toSigned n (leNat (bytes.take n)) :: ·)

/-- The bytes with their padding zeroed. -/
def zeroPadding : List Code → List UInt8 → List UInt8
  | [], bytes => bytes
  | .pad n :: codes, bytes => List.replicate n 0 ++ zeroPadding codes (bytes.drop n)
  | .unsigned n :: codes, bytes | .signed n :: codes, bytes =>
      bytes.take n ++ zeroPadding codes (bytes.drop n)

/-! ## Signed fields -/

theorem ofSigned_lt (n : Nat) (v : Int) : ofSigned n v < 256 ^ n := by
  have hpos : 0 < 256 ^ n := Nat.pow_pos (by decide)
  have hmod := Int.emod_lt_of_pos v (Int.natCast_pos.mpr hpos)
  have hnonneg := Int.emod_nonneg v (Int.natCast_ne_zero.mpr (Nat.ne_of_gt hpos))
  rw [ofSigned]
  omega

theorem toSigned_ofSigned {n : Nat} {v : Int} (h : InSigned n v) :
    toSigned n (ofSigned n v) = v := by
  obtain ⟨hlow, hhigh⟩ := h
  rw [toSigned, ofSigned]
  generalize 256 ^ n = m at hlow hhigh ⊢
  by_cases hneg : v < 0
  · have hmod : v % (m : Int) = v + m := by
      rw [← Int.add_emod_right, Int.emod_eq_of_lt (by omega) (by omega)]
    rw [hmod, if_neg (by omega)]
    omega
  · have hmod : v % (m : Int) = v := Int.emod_eq_of_lt (by omega) (by omega)
    rw [hmod, if_pos (by omega)]
    omega

theorem ofSigned_toSigned {n u : Nat} (h : u < 256 ^ n) : ofSigned n (toSigned n u) = u := by
  rw [toSigned, ofSigned]
  generalize 256 ^ n = m at h ⊢
  split
  · rw [Int.emod_eq_of_lt (by omega) (by omega)]
    omega
  · rw [← Int.add_emod_right, Int.sub_add_cancel, Int.emod_eq_of_lt (by omega) (by omega)]
    omega

theorem toSigned_inSigned {n u : Nat} (h : u < 256 ^ n) : InSigned n (toSigned n u) := by
  rw [InSigned, toSigned]
  generalize 256 ^ n = m at h ⊢
  split <;> omega

/-! ## Round trips -/

theorem unpack_pad {n : Nat} {codes : List Code} {field rest : List UInt8}
    (h : field.length = n) : unpack (.pad n :: codes) (field ++ rest) = unpack codes rest := by
  have hlong : ¬ (field ++ rest).length < n := by
    rw [List.length_append]
    omega
  simp only [unpack, Code.width, if_neg hlong, List.drop_left' h]

theorem unpack_unsigned {n : Nat} {codes : List Code} {field rest : List UInt8}
    (h : field.length = n) :
    unpack (.unsigned n :: codes) (field ++ rest)
      = (unpack codes rest).map ((leNat field : Int) :: ·) := by
  have hlong : ¬ (field ++ rest).length < n := by
    rw [List.length_append]
    omega
  simp only [unpack, Code.width, if_neg hlong, List.drop_left' h, List.take_left' h]

theorem unpack_signed {n : Nat} {codes : List Code} {field rest : List UInt8}
    (h : field.length = n) :
    unpack (.signed n :: codes) (field ++ rest)
      = (unpack codes rest).map (toSigned n (leNat field) :: ·) := by
  have hlong : ¬ (field ++ rest).length < n := by
    rw [List.length_append]
    omega
  simp only [unpack, Code.width, if_neg hlong, List.drop_left' h, List.take_left' h]

/-- The values that can be packed: one for each code but padding, which that field
can hold. -/
theorem pack_isSome {codes : List Code} {values : List Int} :
    (pack codes values).isSome = true
      ↔ List.Forall₂ Code.Holds (codes.filter fun c => !c.isPad) values := by
  induction codes generalizing values with
  | nil =>
      rw [List.filter_nil, List.forall₂_nil_left_iff]
      cases values with
      | nil => exact iff_of_true rfl rfl
      | cons v vs => exact iff_of_false Bool.false_ne_true (List.cons_ne_nil v vs)
  | cons c codes ih =>
      cases c with
      | pad n =>
          rw [pack, Option.isSome_map, ih]
          rfl
      | unsigned n | signed n =>
          rw [List.filter_cons_of_pos rfl]
          cases values with
          | nil => exact iff_of_false Bool.false_ne_true nofun
          | cons v vs =>
              rw [List.forall₂_cons, ← ih, pack]
              split
              · rename_i hfit
                rw [Option.isSome_map]
                exact (and_iff_right hfit).symm
              · rename_i hfit
                exact iff_of_false Bool.false_ne_true fun h => hfit h.1

theorem unpack_pack {codes : List Code} {values : List Int} {bytes : List UInt8}
    (h : pack codes values = some bytes) :
    unpack codes bytes = some values ∧ bytes.length = size codes := by
  induction codes generalizing values bytes with
  | nil =>
      cases values with
      | nil =>
          cases h
          exact ⟨rfl, rfl⟩
      | cons v vs => cases h
  | cons c codes ih =>
      have hsize : size (c :: codes) = c.width + size codes := rfl
      cases c with
      | pad n =>
          rw [pack, Option.map_eq_some_iff] at h
          obtain ⟨rest, hrest, rfl⟩ := h
          obtain ⟨hunpack, hlen⟩ := ih hrest
          rw [unpack_pad List.length_replicate, hsize, List.length_append, List.length_replicate, hlen]
          exact ⟨hunpack, rfl⟩
      | unsigned n =>
          cases values with
          | nil => cases h
          | cons v vs =>
              rw [pack] at h
              split at h
              · rename_i hfit
                rw [Option.map_eq_some_iff] at h
                obtain ⟨rest, hrest, rfl⟩ := h
                obtain ⟨hunpack, hlen⟩ := ih hrest
                refine ⟨?_, by rw [hsize, List.length_append, leBytes_length, hlen]; rfl⟩
                rw [unpack_unsigned (leBytes_length n _), leNat_leBytes (by omega), hunpack,
                  Option.map_some, Int.toNat_of_nonneg hfit.1]
              · cases h
      | signed n =>
          cases values with
          | nil => cases h
          | cons v vs =>
              rw [pack] at h
              split at h
              · rename_i hfit
                rw [Option.map_eq_some_iff] at h
                obtain ⟨rest, hrest, rfl⟩ := h
                obtain ⟨hunpack, hlen⟩ := ih hrest
                refine ⟨?_, by rw [hsize, List.length_append, leBytes_length, hlen]; rfl⟩
                rw [unpack_signed (leBytes_length n _), leNat_leBytes (ofSigned_lt n v), hunpack,
                  Option.map_some, toSigned_ofSigned hfit]
              · cases h

theorem pack_unpack {codes : List Code} {bytes : List UInt8} {values : List Int}
    (h : unpack codes bytes = some values) :
    pack codes values = some (zeroPadding codes bytes) := by
  induction codes generalizing bytes values with
  | nil =>
      cases bytes with
      | nil =>
          cases h
          rfl
      | cons b bs => cases h
  | cons c codes ih =>
      rw [unpack] at h
      split at h
      · cases h
      · rename_i hlong
        cases c with
        | pad n =>
            rw [pack, ih h, Option.map_some, zeroPadding]
            rfl
        | unsigned n =>
            obtain ⟨vs, hvs, rfl⟩ := Option.map_eq_some_iff.mp h
            have hlen : (bytes.take n).length = n :=
              (List.length_take).trans (Nat.min_eq_left (Nat.le_of_not_lt hlong))
            have hlt := leNat_lt (bytes.take n)
            have hback := leBytes_leNat (bytes.take n)
            rw [hlen] at hlt hback
            rw [pack, if_pos ⟨Int.natCast_nonneg _, Int.ofNat_lt.mpr hlt⟩, ih hvs, Int.toNat_natCast,
              hback]
            rfl
        | signed n =>
            obtain ⟨vs, hvs, rfl⟩ := Option.map_eq_some_iff.mp h
            have hlen : (bytes.take n).length = n :=
              (List.length_take).trans (Nat.min_eq_left (Nat.le_of_not_lt hlong))
            have hlt := leNat_lt (bytes.take n)
            have hback := leBytes_leNat (bytes.take n)
            rw [hlen] at hlt hback
            rw [pack, if_pos (toSigned_inSigned hlt), ih hvs, ofSigned_toSigned hlt, hback]
            rfl

theorem unpack_isSome {codes : List Code} {bytes : List UInt8} :
    (unpack codes bytes).isSome = true ↔ bytes.length = size codes := by
  induction codes generalizing bytes with
  | nil => cases bytes <;> simp [unpack, size]
  | cons c codes ih =>
      have hsize : size (c :: codes) = c.width + size codes := rfl
      rw [unpack, hsize]
      split
      · rename_i hshort
        simp only [Option.isSome_none, Bool.false_eq_true, false_iff]
        omega
      · rename_i hlong
        have hrest : (unpack codes (bytes.drop c.width)).isSome = true
            ↔ bytes.length = c.width + size codes := by
          rw [ih, List.length_drop]
          omega
        cases c <;> simpa using hrest

theorem zeroPadding_trailing {codes : List Code} (h : ∀ c ∈ codes, c.isPad = false) {n : Nat}
    {bytes : List UInt8} (hlen : bytes.length = size codes + n) :
    zeroPadding (codes ++ [.pad n]) bytes = bytes.take (size codes) ++ List.replicate n 0 := by
  induction codes generalizing bytes with
  | nil =>
      have hdrop : bytes.drop n = [] := List.drop_eq_nil_of_le (by simp [hlen, size])
      simp [zeroPadding, hdrop, size]
  | cons c codes ih =>
      have hsize : size (c :: codes) = c.width + size codes := rfl
      have hrest : (bytes.drop c.width).length = size codes + n := by
        rw [List.length_drop]
        omega
      have hlater := ih (fun d hd => h d (List.mem_cons_of_mem c hd)) hrest
      have hsplit : bytes.take (c.width + size codes)
          = bytes.take c.width ++ (bytes.drop c.width).take (size codes) := List.take_add ..
      rw [hsize, hsplit, List.append_assoc, ← hlater]
      cases c with
      | pad m => cases h (.pad m) List.mem_cons_self
      | unsigned m | signed m => rfl

def arity (codes : List Code) : Nat := codes.countP fun c => !c.isPad

theorem unpack_length {codes : List Code} {bytes : List UInt8} {values : List Int}
    (h : unpack codes bytes = some values) : values.length = arity codes := by
  induction codes generalizing bytes values with
  | nil =>
      cases bytes with
      | nil =>
          cases h
          rfl
      | cons b bs => cases h
  | cons c codes ih =>
      rw [unpack] at h
      split at h
      · cases h
      · cases c with
        | pad n => exact ih h
        | unsigned n | signed n =>
            obtain ⟨vs, hvs, rfl⟩ := Option.map_eq_some_iff.mp h
            rw [List.length_cons, ih hvs, arity, arity, List.countP_cons_of_pos rfl]

end PackedStruct
