import LeafPaths.Grammar
import Mathlib.Data.List.Infix

/-!
Parsers that come to an end.

A rule of the grammar gives up when it is applied too deep in others. `Ends n z p` says that `p`
never does on a stream in the zone `z`, and that it leaves an end of that stream. There are two
zones: streams of at most `n` tokens, on which a rule begins, and streams of fewer, on which the
rules that it applies are known to end. A parser that takes a token leads from the one to the
other. So it can be read off the text of a rule that it ends, and that is left to instance search.
-/

namespace LeafPaths

namespace Token

variable {α : Type}

theorem size_pos (t : Token α) : 0 < t.size := by
  cases t <;> simp [size]

theorem sizeAll_append (ts us : List (Token α)) : sizeAll (ts ++ us) = sizeAll ts + sizeAll us := by
  induction ts with
  | nil => simp [sizeAll]
  | cons t ts ih =>
    simp only [List.cons_append, sizeAll, ih]
    omega

end Token

namespace Grammar

variable {α : Type} {d : Nat} {x y : Type} {n : Nat}

/-! ### Streams -/

namespace State

def size (s : State α d) : Nat := Token.sizeAll s.rest

/-- The stream of `s'` is an end of the stream of `s`. -/
def Within (s' s : State α d) : Prop := s'.rest <:+ s.rest

namespace Within

variable {s s' s'' : State α d}

theorem trans (h : s''.Within s') (h' : s'.Within s) : s''.Within s := List.IsSuffix.trans h h'

theorem size_le (h : s'.Within s) : s'.size ≤ s.size := by
  obtain ⟨ts, h⟩ := h
  rw [size, size, ← h, Token.sizeAll_append]
  omega

theorem size_lt (h : s'.Within s) (hne : s'.rest.length ≠ s.rest.length) : s'.size < s.size := by
  obtain ⟨ts, h⟩ := h
  rw [size, size, ← h]
  cases ts with
  | nil => exact absurd (by simp [← h]) hne
  | cons t ts =>
    have := t.size_pos
    rw [Token.sizeAll_append, Token.sizeAll]
    omega

end Within

end State

inductive Zone where
  | whole
  | rest

def Zone.Holds (n : Nat) (s : State α d) : Zone → Prop
  | whole => s.size ≤ n
  | rest => s.size < n

theorem Zone.Holds.of_le {z : Zone} {s s' : State α d} (h : z.Holds n s) (hs : s'.size ≤ s.size) :
    z.Holds n s' := by
  cases z with
  | whole => exact Nat.le_trans hs h
  | rest => exact Nat.lt_of_le_of_lt hs h

theorem Zone.Holds.rest_of_lt {z : Zone} {s s' : State α d} (h : z.Holds n s)
    (hs : s'.size < s.size) : Zone.rest.Holds n s' := by
  cases z with
  | whole => exact Nat.lt_of_lt_of_le hs h
  | rest => exact Nat.lt_trans hs h

/-! ### Ends -/

/-- A fault, if there is one, that comes with a complaint. -/
def IsTold (f : Option (Fault α)) : Prop := ∀ e ∈ f, e.complaint.isSome

def EndsWell (s : State α d) : Except (Fault α) (x × State α d) → Prop
  | .ok (_, s') => s'.Within s ∧ IsTold s'.leftover
  | .error f => f.complaint.isSome

/-- On the streams of a zone the parser does not give up. -/
class Ends (n : Nat) (z : Zone) (p : Parser α d x) : Prop where
  endsWell : ∀ s, z.Holds n s → IsTold s.leftover → EndsWell s (p s)

/-- Where the parser succeeds on `ts`, it has passed a token. -/
def TakesOf (ts : Tokens α) (p : Parser α d x) : Prop :=
  ∀ s a s', s.rest = ts → p s = .ok (a, s') → s'.size < s.size

class Takes (p : Parser α d x) : Prop where
  takesOf : ∀ ts, TakesOf ts p

variable {p q : Parser α d x} {z : Zone}

theorem bind_ok {f : x → Parser α d y} {s s' : State α d} {a : x} (h : p s = .ok (a, s')) :
    (p >>= f) s = f a s' := by
  change (p s >>= fun r => f r.1 r.2) = f a s'
  rw [h]
  rfl

theorem bind_error {f : x → Parser α d y} {s : State α d} {e : Fault α} (h : p s = .error e) :
    (p >>= f) s = .error e := by
  change (p s >>= fun r => f r.1 r.2) = .error e
  rw [h]
  rfl

theorem EndsWell.of_within {s s' : State α d} {r : Except (Fault α) (x × State α d)}
    (h : EndsWell s' r) (hs : s'.Within s) : EndsWell s r := by
  cases r with
  | error e => exact h
  | ok r => exact ⟨h.1.trans hs, h.2⟩

/-- A sequence ends if what follows its first step does, wherever that leads. -/
theorem EndsWell.bind {f : x → Parser α d y} {s : State α d} (h : EndsWell s (p s))
    (hf : ∀ a s', p s = .ok (a, s') → s'.Within s → IsTold s'.leftover → EndsWell s' (f a s')) :
    EndsWell s ((p >>= f) s) := by
  cases hp : p s with
  | error e =>
    rw [hp] at h
    rw [bind_error hp]
    exact h
  | ok r =>
    rw [hp] at h
    rw [bind_ok hp]
    exact (hf r.1 r.2 hp h.1 h.2).of_within h.1

theorem Ends.step {f : x → Parser α d y} (hp : Ends n z p) (hf : ∀ a, Ends n z (f a)) :
    Ends n z (p >>= f) where
  endsWell s hs hl := (hp.endsWell s hs hl).bind fun a s' _ hw =>
    (hf a).endsWell s' (hs.of_le hw.size_le)

theorem Ends.past [ht : Takes p] {f : x → Parser α d y} (hp : Ends n z p)
    (hf : ∀ a, Ends n .rest (f a)) : Ends n z (p >>= f) where
  endsWell s hs hl := (hp.endsWell s hs hl).bind fun a s' h _ =>
    (hf a).endsWell s' (hs.rest_of_lt (ht.takesOf s.rest s a s' rfl h))

instance (priority := 900) [hp : Ends n z p] {f : x → Parser α d y} [hf : ∀ a, Ends n z (f a)] :
    Ends n z (p >>= f) :=
  hp.step hf

instance [Takes p] [hp : Ends n z p] {f : x → Parser α d y} [hf : ∀ a, Ends n .rest (f a)] :
    Ends n z (p >>= f) :=
  hp.past hf

instance Ends.pure {a : x} : Ends n z (pure a : Parser α d x) where
  endsWell _ _ hl := ⟨List.suffix_refl _, hl⟩

instance Ends.map {f : x → y} [Ends n z p] : Ends n z (f <$> p) :=
  inferInstanceAs (Ends n z (p >>= fun a => Pure.pure (f a)))

instance Ends.discard [Ends n z p] : Ends n z (discard p) :=
  inferInstanceAs (Ends n z ((fun _ => ()) <$> p))

instance Ends.ite {c : Prop} [Decidable c] [hp : Ends n z p] [hq : Ends n z q] :
    Ends n z (if c then p else q) := by
  split
  · exact hp
  · exact hq

-- Behind an operator that may be missing, both branches are tried with what was found.
instance Ends.ite_false [hq : Ends n z q] : Ends n z (if false = true then p else q) := hq

/-! ### Single tokens -/

instance : Ends n z (upcoming : Parser α d (Tokens α)) := ⟨fun _ _ hl => ⟨List.suffix_refl _, hl⟩⟩

instance : Ends n z (mark : Parser α d α) := ⟨fun _ _ hl => ⟨List.suffix_refl _, hl⟩⟩

instance : Ends n z (atEnd : Parser α d Bool) := ⟨fun _ _ hl => ⟨List.suffix_refl _, hl⟩⟩

instance {c : Complaint} : Ends n z (fail c : Parser α d x) := ⟨fun _ _ _ => rfl⟩

instance {a : α} {c : Complaint} : Ends n z (failAt a c : Parser α d x) := ⟨fun _ _ _ => rfl⟩

instance {ts : List Terminal} : Ends n z (failExpecting ts : Parser α d x) := ⟨fun _ _ _ => rfl⟩

instance {k : Nat} : Ends n z (advance k : Parser α d Unit) :=
  ⟨fun s _ hl => ⟨List.drop_suffix k s.rest, hl⟩⟩

instance {w : String} : Ends n z (word w : Parser α d Unit) := by unfold word; infer_instance
instance {w : String} : Ends n z (optWord w : Parser α d Bool) := by unfold optWord; infer_instance
instance {text : String} : Ends n z (op text : Parser α d Unit) := by unfold op; infer_instance

instance {text : String} : Ends n z (optOp text : Parser α d Bool) := by
  unfold optOp
  infer_instance

instance : Ends n z (name : Parser α d String) := by
  refine .step inferInstance fun ts => ?_
  split <;> infer_instance

instance : Ends n z (anyWord : Parser α d String) := by
  refine .step inferInstance fun ts => ?_
  split <;> infer_instance

instance : Ends n z (lifetime : Parser α d String) := by
  refine .step inferInstance fun ts => ?_
  split <;> infer_instance

instance : Ends n z (optLifetime : Parser α d (Option String)) := by
  unfold optLifetime
  infer_instance

instance : Ends n z (literal : Parser α d String) := by
  refine .step inferInstance fun ts => ?_
  split <;> infer_instance

instance : Ends n z (position : Parser α d Nat) := by
  refine .step inferInstance fun m => .step inferInstance fun ts => ?_
  split
  · dsimp only
    split <;> infer_instance
  · infer_instance

instance : Ends n z (member : Parser α d Member) := by unfold member; infer_instance

/-! ### Tokens taken -/

section

variable {ts : Tokens α}

@[grind ←]
theorem TakesOf.bind_pure {f : x → Parser α d y} (hp : TakesOf ts p) (hf : ∀ a, ∃ b, f a = pure b) :
    TakesOf ts (p >>= f) := by
  intro s b s' hs h
  cases hps : p s with
  | error e =>
    rw [bind_error hps] at h
    cases h
  | ok r =>
    obtain ⟨b', hb⟩ := hf r.1
    rw [bind_ok hps, hb] at h
    cases h
    exact hp s r.1 r.2 hs hps

instance Takes.map {f : x → y} [ht : Takes p] : Takes (f <$> p) :=
  ⟨fun ts => (ht.takesOf ts).bind_pure fun a => ⟨f a, rfl⟩⟩

instance Takes.discard [Takes p] : Takes (discard p) :=
  inferInstanceAs (Takes ((fun _ => ()) <$> p))

@[grind ←]
theorem TakesOf.upcoming_bind {f : Tokens α → Parser α d x} (h : TakesOf ts (f ts)) :
    TakesOf ts (upcoming >>= f) := by
  rintro s a s' rfl
  exact h s a s' rfl

@[grind ←]
theorem TakesOf.mark_bind {f : α → Parser α d x} (h : ∀ a, TakesOf ts (f a)) :
    TakesOf ts (mark >>= f) :=
  fun s => h s.mark s

@[grind .]
theorem takesOf_fail (c : Complaint) : TakesOf ts (fail c : Parser α d x) := by
  intro s a s' _ h
  cases h

@[grind .]
theorem takesOf_failAt (a : α) (c : Complaint) : TakesOf ts (failAt a c : Parser α d x) := by
  intro s b s' _ h
  cases h

@[grind .]
theorem takesOf_failExpecting (us : List Terminal) :
    TakesOf ts (failExpecting us : Parser α d x) := by
  intro s a s' _ h
  cases h

@[grind ←]
theorem takesOf_advance {k : Nat} (hts : ts ≠ []) (hk : 0 < k) :
    TakesOf ts (advance k : Parser α d Unit) := by
  rintro s a s' rfl h
  cases h
  refine State.Within.size_lt (List.drop_suffix k s.rest) ?_
  have := List.length_pos_iff.mpr hts
  simp only [List.length_drop]
  omega

@[grind →]
theorem isOp_pos {text : String} (h : ts.isOp text = true) : ts ≠ [] ∧ 0 < text.length := by
  rw [← String.length_toList]
  rw [Tokens.isOp] at h
  cases ts with
  | nil => simp [Tokens.beginsWith] at h
  | cons t ts =>
    cases htext : text.toList with
    | nil => simp [htext, Tokens.beginsWith] at h
    | cons c cs => simp

@[grind →]
theorem isWord_ne_nil {w : String} (h : ts.isWord w = true) : ts ≠ [] := by
  rintro rfl
  cases h

@[grind →]
theorem literal?_pos {text : String} {k : Nat} (h : ts.literal? = some (text, k)) :
    ts ≠ [] ∧ 0 < k := by
  unfold Tokens.literal? at h
  grind

end

instance {w : String} : Takes (word w : Parser α d Unit) :=
  ⟨fun ts => by unfold word; grind⟩

instance {text : String} : Takes (op text : Parser α d Unit) :=
  ⟨fun ts => by unfold op; grind⟩

instance : Takes (name : Parser α d String) :=
  ⟨fun ts => by unfold name; grind⟩

instance : Takes (anyWord : Parser α d String) :=
  ⟨fun ts => by unfold anyWord; grind⟩

instance : Takes (lifetime : Parser α d String) :=
  ⟨fun ts => by unfold lifetime; grind⟩

instance : Takes (literal : Parser α d String) :=
  ⟨fun ts => by unfold literal; grind⟩

instance : Takes (position : Parser α d Nat) :=
  ⟨fun ts => by unfold position; grind⟩

instance : Takes (member : Parser α d Member) where
  takesOf ts := by
    have hname := (inferInstance : Takes (name : Parser α d String)).takesOf ts
    have hposition := (inferInstance : Takes (position : Parser α d Nat)).takesOf ts
    unfold member
    grind

theorem size_lt_of_optOp {s s' : State α d} {text : String} (h : optOp text s = .ok (true, s')) :
    s'.size < s.size := by
  by_cases hop : s.rest.isOp text = true
  · have hpos := isOp_pos hop
    have htakes : TakesOf s.rest (do advance text.length; return true : Parser α d Bool) :=
      (takesOf_advance hpos.1 hpos.2).bind_pure fun _ => ⟨true, rfl⟩
    refine htakes s true s' rfl (.trans ?_ h)
    change _ = (if s.rest.isOp text = true then (_ : Parser α d Bool) else _) s
    rw [if_pos hop]
  · change (if s.rest.isOp text = true then (_ : Parser α d Bool) else _) s = _ at h
    rw [if_neg hop] at h
    cases h

/-- Where an operator is found, what follows it begins with fewer tokens. -/
theorem Ends.past_optOp {text : String} {f : Bool → Parser α d x} (hf : Ends n z (f false))
    (ht : Ends n .rest (f true)) : Ends n z (optOp text >>= f) where
  endsWell s hs hl := by
    have hop : Ends n z (optOp text : Parser α d Bool) := inferInstance
    refine (hop.endsWell s hs hl).bind fun found s' h hw => ?_
    cases found with
    | false => exact hf.endsWell s' (hs.of_le hw.size_le)
    | true => exact ht.endsWell s' (hs.rest_of_lt (size_lt_of_optOp h))

instance {text : String} {f : Bool → Parser α d x} [hf : Ends n z (f false)]
    [ht : Ends n .rest (f true)] : Ends n z (optOp text >>= f) :=
  .past_optOp hf ht

/-! ### Groups -/

/-- Either no group comes next, or its content is read from a stream of its own and what follows
the group is left. -/
theorem enter_cases (del : Delimiter) (content : Parser α d x) (s : State α d) :
    (∃ c, enter del content s = fail c s) ∨
    ∃ inner : State α d, inner.size < s.size ∧ inner.leftover = s.leftover ∧
      ((∃ f, content inner = .error f ∧ enter del content s = .error f) ∨
        ∃ a t left s', content inner = .ok (a, t) ∧ enter del content s = .ok ((a, left), s') ∧
          IsTold left ∧ s'.Within s ∧ s'.size < s.size ∧ s'.leftover = t.leftover) := by
  unfold enter
  split
  · rename_i del' body closing rest hrest
    have hsize : s.size = Token.sizeAll body + 2 + Token.sizeAll rest := by
      rw [State.size, hrest, Token.sizeAll, Token.size]
    have hbody : Token.depthAll body ≤ d := by
      have := s.depth_le
      rw [hrest] at this
      simp only [Token.depthAll, Token.depth] at this
      omega
    by_cases hdel : del = del'
    · simp only [if_pos hdel]
      refine .inr ⟨⟨body, hbody, closing, s.leftover⟩, ?_, rfl, ?_⟩
      · rw [hsize]
        change Token.sizeAll body < _
        omega
      split
      · rename_i a t hcontent
        refine .inr ⟨a, t, _, _, hcontent, rfl, ?_, ?_, ?_, rfl⟩
        · split
          · exact nofun
          · rintro e ⟨⟩
            rfl
        · change rest <:+ s.rest
          rw [hrest]
          exact List.suffix_cons _ _
        · rw [hsize]
          change Token.sizeAll rest < _
          omega
      · rename_i f hcontent
        exact .inl ⟨f, hcontent, rfl⟩
    · exact .inl ⟨_, if_neg hdel⟩
  · exact .inl ⟨_, rfl⟩

instance {left : { f : Option (Fault α) // IsTold f }} :
    Ends n z (note left.val : Parser α d Unit) where
  endsWell s _ hl := by
    refine ⟨List.suffix_refl _, fun e he => ?_⟩
    cases hs : s.leftover with
    | none => exact left.property e (by simpa [hs] using he)
    | some g => exact hl e (by simpa [hs] using he)

/-- What is left of a group may be noted at any later time. -/
theorem Ends.past_enter {del : Delimiter} {content : Parser α d x}
    {f : x × Option (Fault α) → Parser α d y} (hc : Ends n .rest content)
    (hf : ∀ a (left : { f : Option (Fault α) // IsTold f }), Ends n .rest (f (a, left.val))) :
    Ends n z (enter del content >>= f) where
  endsWell s hs hl := by
    obtain ⟨c, h⟩ | ⟨inner, hsize, hleft, h⟩ := enter_cases del content s
    · rw [bind_error h]
      rfl
    have hin := hc.endsWell inner (hs.rest_of_lt hsize) (hleft ▸ hl)
    obtain ⟨e, he, h⟩ | ⟨a, t, left, s', ht, h, htold, hw, hsize', hleft'⟩ := h
    · rw [he] at hin
      rw [bind_error h]
      exact hin
    · rw [ht] at hin
      rw [bind_ok h]
      exact ((hf a ⟨left, htold⟩).endsWell s' (hs.rest_of_lt hsize') (hleft' ▸ hin.2)).of_within hw

instance {del : Delimiter} {content : Parser α d x} {f : x × Option (Fault α) → Parser α d y}
    [hc : Ends n .rest content]
    [hf : ∀ a (left : { f : Option (Fault α) // IsTold f }), Ends n .rest (f (a, left.val))] :
    Ends n z (enter del content >>= f) :=
  .past_enter hc hf

instance {del : Delimiter} {content : Parser α d x} [Ends n .rest content] :
    Ends n z (inside del content) := by
  unfold inside
  infer_instance

instance {del : Delimiter} {content : Parser α d x} : Takes (inside del content) where
  takesOf ts s b s' _ h := by
    obtain ⟨c, he⟩ | ⟨inner, -, -, ⟨f, -, he⟩ | ⟨a, t, left, s'', -, he, -, -, hlt, -⟩⟩ :=
      enter_cases del content s
    · cases (bind_error he).symm.trans h
    · cases (bind_error he).symm.trans h
    · cases (bind_ok he).symm.trans h
      exact hlt

instance : Ends n z (body : Parser α d (Delimiter × Body d)) where
  endsWell s _ hl := by
    unfold body
    split
    · rename_i rest hrest
      refine ⟨?_, hl⟩
      change rest <:+ s.rest
      rw [hrest]
      exact List.suffix_cons _ _
    · rfl

instance : Ends n z (remainder : Parser α d Verbatim) := by unfold remainder; infer_instance

/-! ### Combinators -/

instance Ends.withTokens [Ends n z p] : Ends n z (withTokens p) := by
  unfold Grammar.withTokens
  infer_instance

instance Ends.tokensOf [Ends n z p] : Ends n z (tokensOf p) := by
  unfold Grammar.tokensOf
  infer_instance

instance [hp : Ends n z p] : Ends n z (attempt p) where
  endsWell s hs hl := by
    have h := hp.endsWell s hs hl
    unfold attempt
    cases hps : p s with
    | error e => exact ⟨List.suffix_refl _, hl⟩
    | ok r =>
      rw [hps] at h
      exact h

instance [hp : Ends n z p] : Ends n z (ahead p) where
  endsWell s hs hl := by
    have h := hp.endsWell s hs hl
    unfold ahead
    cases hps : p s with
    | error e =>
      rw [hps] at h
      exact h
    | ok r => exact ⟨List.suffix_refl _, hl⟩

instance {step : Parser α d (Option x)} [hstep : Ends n z step] : Ends n z (collect step) := by
  have go : ∀ k, Ends n z (collect.go step k) := by
    intro k
    induction k with
    | zero => exact .pure
    | succ k ih =>
      refine hstep.step fun next => ?_
      cases next <;> infer_instance
  exact .step inferInstance fun ts => go _

instance {f : x → Parser α d y} {xs : List x} [hf : ∀ a, Ends n z (f a)] :
    Ends n z (xs.mapM f) := by
  induction xs with
  | nil =>
    rw [List.mapM_nil]
    infer_instance
  | cons a xs ih =>
    rw [List.mapM_cons]
    infer_instance

instance [Ends n z p] : Ends n z (untilEnd p) := by unfold untilEnd; infer_instance

instance {separator : String} {isStop : Tokens α → Bool} [hp : Ends n z p] :
    Ends n z (separated separator isStop p) := by
  have go : ∀ k, Ends n z (separated.go separator isStop p k) := by
    intro k
    induction k with
    | zero => exact .pure
    | succ k ih =>
      unfold separated.go
      infer_instance
  exact .step inferInstance fun ts => go _

instance [Ends n z p] : Ends n z (commaList p) := by unfold commaList; infer_instance

instance {separator : String} {isStop : Tokens α → Bool} [hp : Ends n z p] :
    Ends n z (joined separator isStop p) := by
  have go : ∀ k, Ends n z (joined.go separator isStop p k) := by
    intro k
    induction k with
    | zero => exact .pure
    | succ k ih =>
      unfold joined.go
      infer_instance
  exact .step inferInstance fun ts => go _

end Grammar

end LeafPaths
