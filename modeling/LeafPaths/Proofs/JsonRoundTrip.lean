import LeafPaths.Record

/-!
Records written as objects, one on each line, and read back. The reader takes any
object whose members are strings: blanks between its parts, members in any order,
and in strings every escape that the format knows, pairs of surrogates among them.
A line ends at each line feed, so none may stand inside a record.
-/

namespace LeafPaths

/-! ### Lines -/

/-- The lines of a text in which every line is ended by a line feed. -/
def lines? : List Char → Option (List (List Char))
  | [] => some []
  | c :: rest =>
    if c = '\n' then (lines? rest).map ([] :: ·)
    else
      match lines? rest with
      | some (line :: more) => some ((c :: line) :: more)
      | _ => none

theorem lines?_append {line : List Char} (h : '\n' ∉ line) (rest : List Char) :
    lines? (line ++ '\n' :: rest) = (lines? rest).map (line :: ·) := by
  induction line with
  | nil => simp [lines?]
  | cons c line ih =>
      simp only [List.mem_cons, not_or] at h
      rw [List.cons_append, lines?, if_neg (Ne.symm h.1), ih h.2]
      cases lines? rest <;> rfl

theorem lines?_flatMap {lines : List (List Char)} (h : ∀ line ∈ lines, '\n' ∉ line) :
    lines? (lines.flatMap (· ++ ['\n'])) = some lines := by
  induction lines with
  | nil => rfl
  | cons line lines ih =>
      obtain ⟨hline, hlines⟩ := List.forall_mem_cons.mp h
      simpa [lines?_append hline] using ih hlines

namespace Json

/-! ### The reader -/

def hexValue? (c : Char) : Option Nat :=
  if '0' ≤ c ∧ c ≤ '9' then some (c.toNat - 48)
  else if 'a' ≤ c ∧ c ≤ 'f' then some (c.toNat - 87)
  else if 'A' ≤ c ∧ c ≤ 'F' then some (c.toNat - 55)
  else none

def readUnit? : List Char → Option (Nat × List Char)
  | '\\' :: 'u' :: a :: b :: c :: d :: rest => do
    let value := 16 * (16 * (16 * (← hexValue? a) + (← hexValue? b)) + (← hexValue? c))
    return (value + (← hexValue? d), rest)
  | _ => none

def unescape? : Char → Option Char
  | '"' => some '"'
  | '\\' => some '\\'
  | '/' => some '/'
  | 'b' => some (Char.ofNat 8)
  | 'f' => some (Char.ofNat 12)
  | 'n' => some '\n'
  | 'r' => some '\r'
  | 't' => some '\t'
  | _ => none

/-- A character that is written in digits. One outside the basic plane takes two
units, a high surrogate and a low one, and a surrogate alone is no character. -/
def readUnits? (s : List Char) : Option (Char × List Char) := do
  let (n, rest) ← readUnit? s
  if 0xD800 ≤ n ∧ n < 0xDC00 then
    let (m, rest) ← readUnit? rest
    if 0xDC00 ≤ m ∧ m < 0xE000 then
      return (Char.ofNat (0x10000 + (n - 0xD800) * 0x400 + (m - 0xDC00)), rest)
    else none
  else if 0xDC00 ≤ n ∧ n < 0xE000 then none
  else return (Char.ofNat n, rest)

/-- A character that is written as itself or behind a backslash. -/
def readPlain? : List Char → Option (Char × List Char)
  | '\\' :: e :: rest => (unescape? e).map (·, rest)
  | c :: rest => if c = '"' ∨ c = '\\' ∨ c.toNat < 32 then none else some (c, rest)
  | [] => none

def readChar? (s : List Char) : Option (Char × List Char) := (readUnits? s).or (readPlain? s)

theorem readUnit?_length {s rest : List Char} {n : Nat} (h : readUnit? s = some (n, rest)) :
    rest.length < s.length := by
  unfold readUnit? at h
  split at h
  · simp only [Option.bind_eq_bind, Option.bind_eq_some_iff, Option.pure_def] at h
    obtain ⟨_, -, _, -, _, -, _, -, ⟨⟩⟩ := h
    simp only [List.length_cons]
    omega
  · cases h

theorem readUnits?_length {s rest : List Char} {c : Char} (h : readUnits? s = some (c, rest)) :
    rest.length < s.length := by
  obtain ⟨⟨n, between⟩, hunit, h⟩ := Option.bind_eq_some_iff.mp h
  have hshort := readUnit?_length hunit
  dsimp only at h
  split at h
  · obtain ⟨⟨m, after⟩, hlow, h⟩ := Option.bind_eq_some_iff.mp h
    have hshorter := readUnit?_length hlow
    simp only [Option.pure_def, Option.ite_none_right_eq_some, Option.some.injEq,
      Prod.mk.injEq] at h
    obtain ⟨-, -, rfl⟩ := h
    exact Nat.lt_trans hshorter hshort
  · simp only [Option.pure_def, Option.ite_none_left_eq_some, Option.some.injEq,
      Prod.mk.injEq] at h
    obtain ⟨-, -, rfl⟩ := h
    exact hshort

theorem readPlain?_length {s rest : List Char} {c : Char} (h : readPlain? s = some (c, rest)) :
    rest.length < s.length := by
  unfold readPlain? at h
  split at h
  · obtain ⟨_, -, ⟨⟩⟩ := Option.map_eq_some_iff.mp h
    simp only [List.length_cons]
    omega
  · simp only [Option.ite_none_left_eq_some] at h
    obtain ⟨-, ⟨⟩⟩ := h
    exact Nat.lt_succ_self _
  · cases h

theorem readChar?_length {s rest : List Char} {c : Char} (h : readChar? s = some (c, rest)) :
    rest.length < s.length := by
  rcases Option.or_eq_some_iff.mp h with h | ⟨-, h⟩
  · exact readUnits?_length h
  · exact readPlain?_length h

def readString? (s : List Char) : Option (List Char × List Char) :=
  if s.head? = some '"' then some ([], s.tail)
  else
    match h : readChar? s with
    | some (c, rest) =>
      have := readChar?_length h
      (readString? rest).map fun p => (c :: p.1, p.2)
    | none => none
termination_by s.length

def isBlank (c : Char) : Bool := c == ' ' || c == '\t' || c == '\n' || c == '\r'

/-- Passes blanks and the given character behind them. -/
def expect? (c : Char) (s : List Char) : Option (List Char) :=
  match s.dropWhile isBlank with
  | d :: rest => if d = c then some rest else none
  | [] => none

def readMember? (s : List Char) : Option ((String × String) × List Char) := do
  let s ← expect? '"' s
  let (key, s) ← readString? s
  let s ← expect? ':' s
  let s ← expect? '"' s
  let (value, s) ← readString? s
  return ((String.ofList key, String.ofList value), s)

theorem readString?_length {s rest : List Char} {cs : List Char}
    (h : readString? s = some (cs, rest)) : rest.length ≤ s.length := by
  fun_induction readString? s generalizing cs with
  | case1 s _ =>
      cases h
      simp
  | case2 s _ c between hchar hshort ih =>
      obtain ⟨p, hp, ⟨⟩⟩ := Option.map_eq_some_iff.mp h
      have hle := ih hp
      omega
  | case3 => cases h

theorem expect?_length {c : Char} {s rest : List Char} (h : expect? c s = some rest) :
    rest.length < s.length := by
  unfold expect? at h
  split at h
  · rename_i d after heq
    have hle := (List.dropWhile_sublist isBlank : (s.dropWhile _).Sublist s).length_le
    simp only [Option.ite_none_right_eq_some] at h
    obtain ⟨-, ⟨⟩⟩ := h
    rw [heq, List.length_cons] at hle
    omega
  · cases h

theorem readMember?_length {s rest : List Char} {m : String × String}
    (h : readMember? s = some (m, rest)) : rest.length < s.length := by
  obtain ⟨s₁, h₁, h⟩ := Option.bind_eq_some_iff.mp h
  obtain ⟨⟨key, s₂⟩, h₂, h⟩ := Option.bind_eq_some_iff.mp h
  obtain ⟨s₃, h₃, h⟩ := Option.bind_eq_some_iff.mp h
  obtain ⟨s₄, h₄, h⟩ := Option.bind_eq_some_iff.mp h
  obtain ⟨⟨value, s₅⟩, h₅, h⟩ := Option.bind_eq_some_iff.mp h
  cases h
  have := expect?_length h₁
  have := readString?_length h₂
  have := expect?_length h₃
  have := expect?_length h₄
  have := readString?_length h₅
  omega

/-- Members up to the end of the object, with a comma between any two. -/
def readMembers? (s : List Char) : Option (List (String × String) × List Char) :=
  match h : readMember? s with
  | none => none
  | some (member, rest) =>
    match h' : expect? ',' rest with
    | some after =>
      have := readMember?_length h
      have := expect?_length h'
      (readMembers? after).map fun p => (member :: p.1, p.2)
    | none => (expect? '\x7d' rest).map fun rest => ([member], rest)
termination_by s.length

def readObject? (s : List Char) : Option (List (String × String)) := do
  let s ← expect? '\x7b' s
  let (members, rest) ← ((expect? '\x7d' s).map fun rest => ([], rest)).or (readMembers? s)
  if rest.all isBlank then some members else none

/-- The value of a member that the object has once. -/
def member? (members : List (String × String)) (key : String) : Option String :=
  match members.filter fun m => m.1 == key with
  | [(_, value)] => some value
  | _ => none

def readTriple? (s : List Char) : Option Triple := do
  let members ← readObject? s
  return ⟨← member? members "left", ← member? members "path", ← member? members "right"⟩

/-- Blanks, another order of the members, and escapes that are never written. -/
example :
    readTriple? (" \x7b\"right\" : \"\\u0041\\/\",\"left\":\"\\uD83D\\uDE00\"".toList ++
      ", \"path\":\"\"\x7d ".toList) = some ⟨"😀", "", "A/"⟩ ∧
    readTriple? "\x7b\"left\":\"\"\x7d".toList = none := by
  decide +kernel

/-! ### Strings -/

theorem hexValue?_hexDigit {n : Nat} (h : n < 16) : hexValue? (hexDigit n) = some n := by
  have hall : ∀ n < 16, hexValue? (hexDigit n) = some n := by decide
  exact hall n h

theorem readUnit?_low {n : Nat} (h : n < 256) (rest : List Char) :
    readUnit? ('\\' :: 'u' :: '0' :: '0' :: hexDigit (n / 16) :: hexDigit (n % 16) :: rest) =
      some (n, rest) := by
  have hhigh : hexValue? (hexDigit (n / 16)) = some (n / 16) := hexValue?_hexDigit (by omega)
  have hlow : hexValue? (hexDigit (n % 16)) = some (n % 16) := hexValue?_hexDigit (by omega)
  have hzero : hexValue? '0' = some 0 := by decide
  simp [readUnit?, hhigh, hlow, hzero]
  omega

theorem readUnits?_of_ne {c : Char} (h : c ≠ '\\') (rest : List Char) :
    readUnits? (c :: rest) = none := by
  have hunit : readUnit? (c :: rest) = none := by
    unfold readUnit?
    split
    · rename_i heq
      exact absurd (List.cons.inj heq).1 h
    · rfl
  simp [readUnits?, hunit]

theorem readChar?_short {e c : Char} (he : e ≠ 'u') (h : unescape? e = some c)
    (rest : List Char) : readChar? ('\\' :: e :: rest) = some (c, rest) := by
  have hunit : readUnit? ('\\' :: e :: rest) = none := by
    unfold readUnit?
    split
    · rename_i heq
      exact absurd (List.cons.inj (List.cons.inj heq).2).1 he
    · rfl
  simp [readChar?, readUnits?, hunit, readPlain?, h]

theorem escape_cases (c : Char) :
    (∃ e, escape c = ['\\', e] ∧ e ≠ 'u' ∧ unescape? e = some c) ∨
      (c.toNat < 32 ∧
        escape c = ['\\', 'u', '0', '0', hexDigit (c.toNat / 16), hexDigit (c.toNat % 16)]) ∨
      (c ≠ '"' ∧ c ≠ '\\' ∧ ¬ c.toNat < 32 ∧ escape c = [c]) := by
  by_cases hquote : c = '"'
  · subst hquote
    exact .inl ⟨'"', by decide⟩
  by_cases hback : c = '\\'
  · subst hback
    exact .inl ⟨'\\', by decide⟩
  by_cases hb : c.toNat = 8
  · obtain rfl : c = Char.ofNat 8 := by rw [← hb, Char.ofNat_toNat]
    exact .inl ⟨'b', by decide⟩
  by_cases hf : c.toNat = 12
  · obtain rfl : c = Char.ofNat 12 := by rw [← hf, Char.ofNat_toNat]
    exact .inl ⟨'f', by decide⟩
  by_cases hn : c = '\n'
  · subst hn
    exact .inl ⟨'n', by decide⟩
  by_cases hr : c = '\r'
  · subst hr
    exact .inl ⟨'r', by decide⟩
  by_cases ht : c = '\t'
  · subst ht
    exact .inl ⟨'t', by decide⟩
  by_cases hcontrol : c.toNat < 32
  · exact .inr (.inl ⟨hcontrol, by simp [escape, *]⟩)
  · exact .inr (.inr ⟨hquote, hback, hcontrol, by simp [escape, *]⟩)

/-- Whatever a character is written as, it is read back from just that. -/
theorem readChar?_escape (c : Char) (rest : List Char) :
    readChar? (escape c ++ rest) = some (c, rest) := by
  rcases escape_cases c with ⟨e, hescape, he, hc⟩ | ⟨hcontrol, hescape⟩ |
    ⟨hquote, hback, hcontrol, hescape⟩
  · rw [hescape]
    exact readChar?_short he hc rest
  · have hunit := readUnit?_low (n := c.toNat) (by omega) rest
    have hhigh : ¬ (0xD800 ≤ c.toNat ∧ c.toNat < 0xDC00) := by omega
    have hlow : ¬ (0xDC00 ≤ c.toNat ∧ c.toNat < 0xE000) := by omega
    simp [hescape, readChar?, readUnits?, hunit, hhigh, hlow]
  · simp [hescape, readChar?, readUnits?_of_ne hback, readPlain?, hquote, hback, hcontrol]

theorem lineFeed_not_mem_escape (c : Char) : '\n' ∉ escape c := by
  have hdigit : ∀ n < 16, hexDigit n ≠ '\n' := by decide
  rcases escape_cases c with ⟨e, hescape, -, he⟩ | ⟨hcontrol, hescape⟩ |
    ⟨-, -, hcontrol, hescape⟩
  · have hne : '\n' ≠ e := by
      rintro rfl
      simp [unescape?] at he
    simp [hescape, hne]
  · have hhigh := hdigit (c.toNat / 16) (by omega)
    have hlow := hdigit (c.toNat % 16) (by omega)
    simp [hescape, hhigh.symm, hlow.symm]
  · have hne : '\n' ≠ c := by
      rintro rfl
      exact hcontrol (by decide)
    simp [hescape, hne]

theorem readString?_char {s rest : List Char} {c : Char} (h : readChar? s = some (c, rest)) :
    readString? s = (readString? rest).map fun p => (c :: p.1, p.2) := by
  have hhead : s.head? ≠ some '"' := by
    intro hquote
    obtain ⟨after, rfl⟩ : ∃ after, s = '"' :: after := by
      cases s with
      | nil => cases hquote
      | cons d after =>
          cases hquote
          exact ⟨after, rfl⟩
    simp [readChar?, readUnits?_of_ne, readPlain?] at h
  rw [readString?, if_neg hhead]
  split
  · rename_i heq
    rw [h] at heq
    cases heq
    rfl
  · rename_i heq
    rw [h] at heq
    cases heq

theorem readString?_flatMap_escape (s rest : List Char) :
    readString? (s.flatMap escape ++ '"' :: rest) = some (s, rest) := by
  induction s with
  | nil => simp [readString?]
  | cons c s ih =>
      rw [List.flatMap_cons, List.append_assoc, readString?_char (readChar?_escape c _), ih]
      rfl

theorem lineFeed_not_mem_string (s : List Char) : '\n' ∉ string s := by
  simp [string, lineFeed_not_mem_escape]

/-! ### Objects -/

theorem expect?_cons {c : Char} (h : isBlank c = false) (rest : List Char) :
    expect? c (c :: rest) = some rest := by
  simp [expect?, h]

theorem expect?_cons_ne {c d : Char} (h : isBlank d = false) (hne : d ≠ c) (rest : List Char) :
    expect? c (d :: rest) = none := by
  simp [expect?, h, hne]

def memberChars (m : String × String) : List Char :=
  string m.1.toList ++ ':' :: string m.2.toList

theorem readMember?_memberChars (m : String × String) (rest : List Char) :
    readMember? (memberChars m ++ rest) = some (m, rest) := by
  simp [readMember?, memberChars, string, expect?_cons (by decide : isBlank '"' = false),
    expect?_cons (by decide : isBlank ':' = false), readString?_flatMap_escape]

theorem readMembers?_more {s rest after : List Char} {m : String × String}
    (h : readMember? s = some (m, rest)) (hrest : expect? ',' rest = some after) :
    readMembers? s = (readMembers? after).map fun p => (m :: p.1, p.2) := by
  rw [readMembers?]
  split
  · rename_i heq
    rw [h] at heq
    cases heq
  · rename_i heq
    rw [h] at heq
    cases heq
    split
    · rename_i heq'
      rw [hrest] at heq'
      cases heq'
      rfl
    · rename_i heq'
      rw [hrest] at heq'
      cases heq'

theorem readMembers?_last {s rest : List Char} {m : String × String}
    (h : readMember? s = some (m, '\x7d' :: rest)) : readMembers? s = some ([m], rest) := by
  have hcomma : expect? ',' ('\x7d' :: rest) = none := expect?_cons_ne (by decide) (by decide) rest
  have hend : expect? '\x7d' ('\x7d' :: rest) = some rest := expect?_cons (by decide) rest
  rw [readMembers?]
  split
  · rename_i heq
    rw [h] at heq
    cases heq
  · rename_i heq
    rw [h] at heq
    cases heq
    split
    · rename_i heq'
      rw [hcomma] at heq'
      cases heq'
    · simp [hend]

def members (t : Triple) : List (String × String) :=
  [("left", t.left), ("path", t.path), ("right", t.right)]

def body (t : Triple) : List Char :=
  memberChars ("left", t.left) ++ ',' :: (memberChars ("path", t.path) ++
    ',' :: (memberChars ("right", t.right) ++ ['\x7d']))

def line (t : Triple) : List Char := '\x7b' :: body t

theorem record_eq_line (t : Triple) : record t = line t ++ ['\n'] := by
  have hleft : "\x7b\"left\":".toList = '\x7b' :: string "left".toList ++ [':'] := by decide
  have hpath : ",\"path\":".toList = ',' :: string "path".toList ++ [':'] := by decide
  have hright : ",\"right\":".toList = ',' :: string "right".toList ++ [':'] := by decide
  have hend : "\x7d\n".toList = ['\x7d', '\n'] := by decide
  -- `rw [record]` would make an equation, which is slow for the texts in it
  unfold record line body memberChars
  rw [hleft, hpath, hright, hend]
  simp only [List.append_assoc, List.cons_append, List.nil_append]

theorem lineFeed_not_mem_line (t : Triple) : '\n' ∉ line t := by
  simp [line, body, memberChars, lineFeed_not_mem_string]

theorem readMembers?_body (t : Triple) : readMembers? (body t) = some (members t, []) := by
  have hlast : readMembers? (memberChars ("right", t.right) ++ ['\x7d']) =
      some ([("right", t.right)], []) :=
    readMembers?_last (readMember?_memberChars _ _)
  have hmiddle : readMembers? (memberChars ("path", t.path) ++
      ',' :: (memberChars ("right", t.right) ++ ['\x7d'])) =
      some ([("path", t.path), ("right", t.right)], []) := by
    rw [readMembers?_more (readMember?_memberChars _ _) (expect?_cons (by decide) _), hlast]
    rfl
  rw [body, readMembers?_more (readMember?_memberChars _ _) (expect?_cons (by decide) _), hmiddle]
  rfl

theorem readObject?_line (t : Triple) : readObject? (line t) = some (members t) := by
  have hopen : expect? '\x7b' (line t) = some (body t) := expect?_cons (by decide) _
  have hnonempty : expect? '\x7d' (body t) = none := by
    simp only [body, memberChars, string, List.cons_append]
    exact expect?_cons_ne (by decide) (by decide) _
  rw [readObject?, hopen, Option.bind_eq_bind, Option.bind_some, hnonempty, Option.map_none,
    Option.none_or, readMembers?_body]
  rfl

theorem readTriple?_line (t : Triple) : readTriple? (line t) = some t := by
  simp [readTriple?, readObject?_line, members, member?]

theorem render_toList (ts : List Triple) :
    (Format.jsonl.render ts).toList = (ts.map line).flatMap (· ++ ['\n']) := by
  simp [Format.render, Format.record, List.flatMap_map, record_eq_line]

theorem count_lineFeed_render (ts : List Triple) :
    (Format.jsonl.render ts).toList.count '\n' = ts.length := by
  rw [render_toList]
  induction ts with
  | nil => rfl
  | cons t ts ih =>
      rw [List.map_cons, List.flatMap_cons, List.count_append, List.count_append,
        List.count_eq_zero.mpr (lineFeed_not_mem_line t), ih]
      simp
      omega

/-- Records on lines lose nothing. There is one line feed for each context and it
ends the context's line; each line is an object with the three fields in order, and
reading the lines one by one gives the contexts back. -/
theorem render_lines_read_back (ts : List Triple) :
    let text := (Format.jsonl.render ts).toList
    text.count '\n' = ts.length ∧
      ∃ lines, lines? text = some lines ∧ text = lines.flatMap (· ++ ['\n']) ∧
        (∀ l ∈ lines, '\n' ∉ l) ∧
        lines.map readObject? = (ts.map fun t =>
          some [("left", t.left), ("path", t.path), ("right", t.right)]) ∧
        lines.mapM readTriple? = some ts := by
  intro text
  have hfree : ∀ l ∈ ts.map line, '\n' ∉ l := by
    intro l hl
    obtain ⟨t, -, rfl⟩ := List.mem_map.mp hl
    exact lineFeed_not_mem_line t
  have htext : text = (ts.map line).flatMap (· ++ ['\n']) := render_toList ts
  refine ⟨count_lineFeed_render ts, ts.map line, ?_, htext, hfree, ?_, ?_⟩
  · rw [htext]
    exact lines?_flatMap hfree
  · simp [readObject?_line, members]
  · have heach : readTriple? ∘ line = fun t => pure t := funext readTriple?_line
    rw [List.mapM_map, heach, List.mapM_pure, List.map_id']
    rfl

/-- A line feed, quotes, a backslash and a control character in tokens. -/
theorem render_lines_read_back_control :
    let t : Triple := ⟨"\"\n\\\"", "[Lit]", "\x01"⟩
    let text := (Format.jsonl.render [t]).toList
    '\n' ∈ t.left.toList ∧ text.count '\n' = 1 ∧
      ∃ l, lines? text = some [l] ∧ '\n' ∉ l ∧
        readObject? l = some [("left", t.left), ("path", t.path), ("right", t.right)] := by
  intro t text
  obtain ⟨hcount, lines, hlines, -, hfree, hobjects, -⟩ := render_lines_read_back [t]
  obtain ⟨l, rfl, hobject⟩ := List.map_eq_singleton_iff.mp hobjects
  exact ⟨by decide, hcount, l, hlines, hfree l (by simp), hobject⟩

end Json

end LeafPaths
