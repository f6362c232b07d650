import Mathlib.Algebra.Group.Nat.Defs
import LeafPaths.FilePath

/-!
The order of names. Folders are listed by the code points of the names in them, and
files are to be found in the order of the bytes that spell their names. Both are one
order: a greater code point has no shorter form, and of two forms of one length the
first byte that differs decides.
-/

namespace LeafPaths

namespace FilePath

def bytes (name : String) : List UInt8 := name.toUTF8.data.toList

/-- The order of names by their bytes. -/
def NameBefore (m n : String) : Prop := List.Lex (· < ·) (bytes m) (bytes n)

/-- A code point in one byte and `k` more with six bits each. -/
def code (lead : Nat) : Nat → Nat → List UInt8
  | 0, v => [UInt8.ofNat (lead + v)]
  | k + 1, v => code lead k (v / 64) ++ [UInt8.ofNat (v % 64 + 128)]

theorem exists_code_eq (lead k v : Nat) :
    ∃ rest, code lead k v = UInt8.ofNat (lead + v / 64 ^ k) :: rest := by
  induction k generalizing v with
  | zero => exact ⟨[], by simp [code]⟩
  | succ k ih =>
      obtain ⟨rest, hrest⟩ := ih (v / 64)
      refine ⟨rest ++ [UInt8.ofNat (v % 64 + 128)], ?_⟩
      rw [code, hrest, Nat.div_div_eq_div_mul, Nat.pow_succ']
      rfl

theorem lex_byte {a b : Nat} (h : a < b) (hb : b < 256) (x y : List UInt8) :
    List.Lex (· < ·) (UInt8.ofNat a :: x) (UInt8.ofNat b :: y) := by
  refine .rel ?_
  rw [UInt8.lt_iff_toNat_lt, UInt8.toNat_ofNat_of_lt' (Nat.lt_trans h hb),
    UInt8.toNat_ofNat_of_lt' hb]
  exact h

theorem lex_code {lead k v w : Nat} (h : v < w) (hw : lead + w / 64 ^ k < 256) (x y : List UInt8) :
    List.Lex (· < ·) (code lead k v ++ x) (code lead k w ++ y) := by
  induction k generalizing v w x y with
  | zero =>
      rw [Nat.pow_zero, Nat.div_one] at hw
      exact lex_byte (by omega) hw x y
  | succ k ih =>
      rw [Nat.pow_succ', ← Nat.div_div_eq_div_mul] at hw
      rw [code, code, List.append_assoc, List.append_assoc]
      rcases Nat.lt_or_ge (v / 64) (w / 64) with hlt | hge
      · exact ih hlt hw _ _
      · have hfront : v / 64 = w / 64 := by omega
        rw [hfront]
        exact List.append_left_lt (lex_byte (by omega) (by omega) x y)

theorem utf8EncodeChar_eq_code (c : Char) :
    ∃ lead k, String.utf8EncodeChar c = code lead k c.val.toNat ∧
      ((c.val.toNat < 128 ∧ lead = 0 ∧ k = 0) ∨
        (128 ≤ c.val.toNat ∧ c.val.toNat < 2048 ∧ lead = 192 ∧ k = 1) ∨
        (2048 ≤ c.val.toNat ∧ c.val.toNat < 65536 ∧ lead = 224 ∧ k = 2) ∨
        (65536 ≤ c.val.toNat ∧ c.val.toNat < 1114112 ∧ lead = 240 ∧ k = 3)) := by
  have hvalid : c.val.toNat.isValidChar := c.valid
  unfold Nat.isValidChar at hvalid
  unfold String.utf8EncodeChar
  generalize c.val.toNat = v at *
  simp only []
  split
  · exact ⟨0, 0, by rw [code, Nat.zero_add], by omega⟩
  · split
    · have hlead : v / 64 % 32 + 192 = 192 + v / 64 := by omega
      exact ⟨192, 1, by rw [hlead]; rfl, by omega⟩
    · split
      · have hlead : v / 4096 % 16 + 224 = 224 + v / 64 / 64 := by omega
        exact ⟨224, 2, by rw [hlead]; rfl, by omega⟩
      · have hlead : v / 262144 % 8 + 240 = 240 + v / 64 / 64 / 64 := by omega
        have hnext : v / 4096 = v / 64 / 64 := by omega
        exact ⟨240, 3, by rw [hlead, hnext]; rfl, by omega⟩

theorem lex_utf8EncodeChar {c d : Char} (h : c < d) (x y : List UInt8) :
    List.Lex (· < ·) (String.utf8EncodeChar c ++ x) (String.utf8EncodeChar d ++ y) := by
  have hlt : c.val.toNat < d.val.toNat := h
  obtain ⟨lead, k, hc, hkind⟩ := utf8EncodeChar_eq_code c
  obtain ⟨lead', k', hd, hkind'⟩ := utf8EncodeChar_eq_code d
  rw [hc, hd]
  generalize c.val.toNat = v at *
  generalize d.val.toNat = w at *
  have hbyte : lead' + w / 64 ^ k' < 256 := by
    rcases hkind' with ⟨_, rfl, rfl⟩ | ⟨_, _, rfl, rfl⟩ | ⟨_, _, rfl, rfl⟩ | ⟨_, _, rfl, rfl⟩ <;>
      omega
  by_cases hk : k = k'
  · obtain ⟨rfl, rfl⟩ : lead = lead' ∧ k = k' := by omega
    exact lex_code hlt hbyte x y
  · obtain ⟨rest, hrest⟩ := exists_code_eq lead k v
    obtain ⟨rest', hrest'⟩ := exists_code_eq lead' k' w
    have hfirst : lead + v / 64 ^ k < lead' + w / 64 ^ k' := by
      rcases hkind with ⟨_, rfl, rfl⟩ | ⟨_, _, rfl, rfl⟩ | ⟨_, _, rfl, rfl⟩ | ⟨_, _, rfl, rfl⟩ <;>
      rcases hkind' with ⟨_, rfl, rfl⟩ | ⟨_, _, rfl, rfl⟩ | ⟨_, _, rfl, rfl⟩ | ⟨_, _, rfl, rfl⟩ <;>
      omega
    rw [hrest, hrest']
    exact lex_byte hfirst hbyte _ _

theorem bytes_eq_flatMap (name : String) :
    bytes name = name.toList.flatMap String.utf8EncodeChar := by
  have hencode : name.toUTF8 = name.toList.utf8Encode := by
    rw [← String.toByteArray_ofList, String.ofList_toList, String.toUTF8_eq_toByteArray]
  rw [bytes, hencode, List.utf8Encode, List.data_toByteArray]

theorem lex_flatMap_utf8EncodeChar {cs ds : List Char} (h : List.Lex (· < ·) cs ds) :
    List.Lex (· < ·) (cs.flatMap String.utf8EncodeChar) (ds.flatMap String.utf8EncodeChar) := by
  induction h with
  | @nil d ds =>
      obtain ⟨lead, k, hd, -⟩ := utf8EncodeChar_eq_code d
      obtain ⟨rest, hrest⟩ := exists_code_eq lead k d.val.toNat
      rw [List.flatMap_nil, List.flatMap_cons, hd, hrest]
      exact .nil
  | cons _ ih => exact List.append_left_lt ih
  | rel hlt => exact lex_utf8EncodeChar hlt _ _

/-- Bytes compare as the characters do that they stand for. -/
theorem nameBefore_of_lt {m n : String} (h : m < n) : NameBefore m n := by
  rw [NameBefore, bytes_eq_flatMap, bytes_eq_flatMap]
  exact lex_flatMap_utf8EncodeChar (String.lt_iff.mp h)

theorem not_nameBefore_of_nameBefore {m n : String} (h : NameBefore m n) : ¬ NameBefore n m :=
  List.lex_asymm (fun h => UInt8.lt_asymm h) h

theorem not_nameBefore_self (n : String) : ¬ NameBefore n n :=
  List.lex_irrefl (fun b => UInt8.lt_irrefl b) _

theorem nodup_of_ordered {ws : List (List String)} (h : ws.Pairwise (List.Lex NameBefore)) :
    ws.Nodup := by
  refine h.imp ?_
  rintro u w hlex rfl
  exact List.lex_irrefl not_nameBefore_self u hlex

/-- Ways of names are listed in their order in one way only. -/
theorem eq_of_ordered {us ws : List (List String)} (hus : us.Pairwise (List.Lex NameBefore))
    (hws : ws.Pairwise (List.Lex NameBefore)) (hmem : ∀ w, w ∈ us ↔ w ∈ ws) : us = ws := by
  apply List.Perm.eq_of_pairwise ?_ hus hws
  · exact (List.perm_ext_iff_of_nodup (nodup_of_ordered hus) (nodup_of_ordered hws)).mpr hmem
  · intro u w _ _ huw hwu
    exact absurd hwu (List.lex_asymm not_nameBefore_of_nameBefore huw)

end FilePath

end LeafPaths
