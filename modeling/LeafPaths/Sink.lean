/-!
Sinks: where bytes are written to.

A sink may take only so many bytes in all. A write that is too long for what is left fills the sink
and fails, and how the bytes are cut into writes makes no difference. A sink may also refuse to be
flushed.
-/

namespace LeafPaths

structure Sink where
  accepted : ByteArray
  /-- How many bytes the sink takes in all; no number stands for no limit. -/
  capacity : Option Nat
  flushes : Bool
deriving Inhabited

inductive SinkError where
  | full
  | flushRefused
deriving DecidableEq, Repr, Inhabited

def SinkError.message : SinkError → String
  | full => "sink is full"
  | flushRefused => "flush refused"

namespace Sink

def unlimited : Sink := ⟨.empty, none, true⟩

def room (s : Sink) (offered : Nat) : Nat :=
  match s.capacity with
  | none => offered
  | some n => min offered (n - s.accepted.size)

/-- Writes as many of the bytes as fit; it fails if some do not. -/
def write (s : Sink) (bytes : ByteArray) : Sink × Except SinkError Unit :=
  let fitting := s.room bytes.size
  if fitting < bytes.size then
    ({ s with accepted := s.accepted ++ bytes.extract 0 fitting }, .error .full)
  else ({ s with accepted := s.accepted ++ bytes }, .ok ())

def writeEach (s : Sink) : List String → Sink × Except SinkError Unit
  | [] => (s, .ok ())
  | text :: rest =>
    match s.write text.toUTF8 with
    | (s, .error e) => (s, .error e)
    | (s, .ok ()) => s.writeEach rest

def flush (s : Sink) : Except SinkError Unit :=
  if s.flushes then .ok () else .error .flushRefused

theorem extract_of_size_le {bytes : ByteArray} {n : Nat} (h : bytes.size ≤ n) :
    bytes.extract 0 n = bytes := by
  have hall : bytes.extract 0 (max n bytes.size) = bytes := ByteArray.extract_zero_max_size
  rwa [Nat.max_eq_left h] at hall

theorem write_limited (accepted : ByteArray) (n : Nat) (flushes : Bool) (bytes : ByteArray) :
    write ⟨accepted, some n, flushes⟩ bytes =
      (⟨accepted ++ bytes.extract 0 (n - accepted.size), some n, flushes⟩,
        if bytes.size ≤ n - accepted.size then .ok () else .error .full) := by
  by_cases h : bytes.size ≤ n - accepted.size
  · have hroom : room ⟨accepted, some n, flushes⟩ bytes.size = bytes.size := Nat.min_eq_left h
    simp only [write, hroom, Nat.lt_irrefl, if_false, if_pos h, extract_of_size_le h]
  · have hroom : room ⟨accepted, some n, flushes⟩ bytes.size = n - accepted.size :=
      Nat.min_eq_right (Nat.le_of_not_le h)
    simp only [write, hroom, Nat.lt_of_not_le h, if_true, if_neg h]

theorem write_append (s : Sink) (a b : ByteArray) :
    s.write (a ++ b) =
      match s.write a with
      | (s, .error e) => (s, .error e)
      | (s, .ok ()) => s.write b := by
  obtain ⟨accepted, capacity, flushes⟩ := s
  cases capacity with
  | none => simp [write, room, ByteArray.append_assoc]
  | some n =>
    have hcut : (a ++ b).extract 0 (n - accepted.size) =
        a.extract 0 (n - accepted.size) ++ b.extract 0 (n - accepted.size - a.size) := by
      rw [ByteArray.extract_append, Nat.zero_sub]
    rw [write_limited, write_limited, hcut]
    by_cases ha : a.size ≤ n - accepted.size
    · have hleft : n - (accepted ++ a).size = n - accepted.size - a.size := by
        rw [ByteArray.size_append]
        omega
      have hfit : (a ++ b).size ≤ n - accepted.size ↔ b.size ≤ n - (accepted ++ a).size := by
        rw [ByteArray.size_append, hleft]
        omega
      rw [if_pos ha, extract_of_size_le ha]
      simp only [write_limited, hfit, hleft, ByteArray.append_assoc]
    · rw [if_neg ha, if_neg (by rw [ByteArray.size_append]; omega),
        Nat.sub_eq_zero_of_le (Nat.le_of_not_le ha), ByteArray.extract_same,
        ByteArray.append_empty]

/-- How a text is cut into pieces does not show. -/
theorem writeEach_eq_write (s : Sink) (texts : List String) :
    s.writeEach texts = s.write (String.join texts).toUTF8 := by
  induction texts generalizing s with
  | nil => simp [writeEach, write]
  | cons text rest ih =>
    rw [String.join_cons, String.toUTF8_eq_toByteArray, String.toByteArray_append, write_append, writeEach]
    simp only [ih]
    rfl

end Sink

end LeafPaths
