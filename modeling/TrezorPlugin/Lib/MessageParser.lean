import TrezorPlugin.Lib.Wire

/-!
# Generated message parsers

A generated parser is a loop around a switch over field numbers.  After a field
it may go straight to the label of the field expected next, when `expectTag` sees
its tag, and return when `expectAtEnd` sees the end.  `Parser` is such a switch
and `Parser.run` its loop.

    S.Lawful W At → At s c → Rel (S.Ends At) (P.parse S m s) (Q.parse W.plain m c)    (parse_rel)

so the jumps, and what a stream has in its buffer, make no difference.
-/

namespace Wire

variable {σ τ M N F : Type}

/-- `return true`, at a place of the stream, or `return false`; the message as it is left. -/
inductive Outcome (σ M : Type)
  | ok (m : M) (s : σ)
  | failed (m : M)
  | unfinished

def Outcome.map (f : M → N) : Outcome σ M → Outcome σ N
  | .ok m s => .ok (f m) s
  | .failed m => .failed (f m)
  | .unfinished => .unfinished

/-- `DO_(..)`: a value read is put into the message; a failed read leaves it as `torn` says. -/
def put {α ε : Type} (m : ε → M) (f : α → M) : Except ε (α × σ) → Outcome σ M
  | .ok (a, s) => .ok (f a) s
  | .error e => .failed (m e)

/-- The same message on both sides, the streams at matching places. -/
def Outcome.Rel (At : σ → τ → Prop) : Outcome σ M → Outcome τ M → Prop
  | .ok m s, .ok m' t => m = m' ∧ At s t
  | .failed m, .failed m' => m = m'
  | _, _ => False

theorem Outcome.Rel.cases {At : σ → τ → Prop} {x : Outcome σ M} {y : Outcome τ M}
    (h : Outcome.Rel At x y) :
    (∃ m s t, x = .ok m s ∧ y = .ok m t ∧ At s t) ∨ ∃ m, x = .failed m ∧ y = .failed m := by
  cases x with
  | ok m s =>
    cases y with
    | ok m' t =>
      obtain ⟨rfl, hat⟩ := h
      exact .inl ⟨m, s, t, rfl, rfl, hat⟩
    | failed m' => exact h.elim
    | unfinished => exact h.elim
  | failed m =>
    cases y with
    | ok m' t => exact h.elim
    | failed m' =>
      obtain rfl := h
      exact .inr ⟨m, rfl, rfl⟩
    | unfinished => exact h.elim
  | unfinished => exact h.elim

theorem Agree.cases {α ε : Type} {At : σ → τ → Prop} {x : Except ε (α × σ)} {y : Except ε (α × τ)}
    (h : Agree At x y) :
    (∃ a s t, x = .ok (a, s) ∧ y = .ok (a, t) ∧ At s t) ∨ ∃ e, x = .error e ∧ y = .error e := by
  cases x with
  | ok p =>
    cases y with
    | ok q =>
      obtain ⟨heq, hat⟩ := h
      exact .inl ⟨p.1, p.2, q.2, rfl, by rw [heq], hat⟩
    | error e => exact h.elim
  | error e =>
    cases y with
    | ok q => exact h.elim
    | error e' =>
      obtain rfl := h
      exact .inr ⟨e, rfl, rfl⟩

theorem Outcome.Rel.map {At : σ → τ → Prop} {x : Outcome σ M} {y : Outcome τ M}
    (h : Outcome.Rel At x y) (f : M → N) : Outcome.Rel At (x.map f) (y.map f) := by
  rcases h.cases with ⟨m, s, t, rfl, rfl, hat⟩ | ⟨m, rfl, rfl⟩
  · exact ⟨rfl, hat⟩
  · exact rfl

theorem Agree.put {α ε : Type} {At : σ → τ → Prop} {x : Except ε (α × σ)} {y : Except ε (α × τ)}
    (h : Agree At x y) (m : ε → M) (f : α → M) : Outcome.Rel At (put m f x) (put m f y) := by
  rcases h.cases with ⟨a, s, t, rfl, rfl, hat⟩ | ⟨e, rfl, rfl⟩
  · exact ⟨rfl, hat⟩
  · exact rfl

/-! ## The loop -/

/-- A field of the switch: the wire type it is read under, how it is read, the tags expected behind
it with the fields they go to, and whether the end may be expected. -/
structure Case (σ M : Type) where
  wireType : Nat
  read : M → σ → Outcome σ M
  expects : List (Nat × Nat)
  ends : Bool

structure Parser (σ M F : Type) where
  fields : Nat → Option (Case σ M)
  addUnknown : M → F → M

/-- The field that a tag is read as: its number is known and its wire type the right one. -/
def Parser.matching (P : Parser σ M F) (tag : Nat) : Option Nat :=
  match P.fields (tag / 8) with
  | none => none
  | some c => if tag % 8 = c.wireType then some (tag / 8) else none

/-- `if (input->ExpectTag(tag)) goto label`, one after the other. -/
def jump (S : CodedInputStream σ F) : List (Nat × Nat) → σ → Option Nat × σ
  | [], s => (none, s)
  | (tag, n) :: rest, s =>
    match S.expectTag tag s with
    | (true, s) => (some n, s)
    | (false, s) => jump S rest s

/-- `handle_uninterpreted`. -/
def Parser.uninterpreted (P : Parser σ M F) (S : CodedInputStream σ F)
    (next : Option Nat → M → σ → Outcome σ M) (tag : Nat) (m : M) (s : σ) : Outcome σ M :=
  if tag % 8 = typeEndGroup then .ok m s
  else
    match S.skipField tag s with
    | .error left => .failed (left.elim m (P.addUnknown m))
    | .ok (f, s) => next none (P.addUnknown m f) s

/-- The head of the loop. -/
def Parser.head (P : Parser σ M F) (S : CodedInputStream σ F)
    (next : Option Nat → M → σ → Outcome σ M) (m : M) (s : σ) : Outcome σ M :=
  let (tag, s) := S.readTag s
  if tag = 0 then .ok m s
  else
    match P.matching tag with
    | some n => next (some n) m s
    | none => P.uninterpreted S next tag m s

/-- What stands behind the reading of a field. -/
def Case.leave (c : Case σ M) (S : CodedInputStream σ F)
    (next : Option Nat → M → σ → Outcome σ M) (m : M) (s : σ) : Outcome σ M :=
  match jump S c.expects s with
  | (some n, s) => next (some n) m s
  | (none, s) =>
    if c.ends then
      match S.expectAtEnd s with
      | (true, s) => .ok m s
      | (false, s) => next none m s
    else next none m s

/-- The label of a field. -/
def Parser.label (P : Parser σ M F) (S : CodedInputStream σ F)
    (next : Option Nat → M → σ → Outcome σ M) (n : Nat) (m : M) (s : σ) : Outcome σ M :=
  match P.fields n with
  | none => .unfinished
  | some c =>
    match c.read m s with
    | .unfinished => .unfinished
    | .failed m => .failed m
    | .ok m s => c.leave S next m s

/-- From the head of the loop, or from the label of a field. -/
def Parser.run (P : Parser σ M F) (S : CodedInputStream σ F) :
    Nat → Option Nat → M → σ → Outcome σ M
  | 0, _, _, _ => .unfinished
  | k + 1, none, m, s => P.head S (P.run S k) m s
  | k + 1, some n, m, s => P.label S (P.run S k) n m s

/-- `MergePartialFromCodedStream`: every field takes at least a byte, and two turns at most. -/
def Parser.parse (P : Parser σ M F) (S : CodedInputStream σ F) (m : M) (s : σ) : Outcome σ M :=
  P.run S (2 * S.bytesUntilLimit s + 1) none m s

/-- `ReadMessageNoVirtual`, with the parser of the nested message. -/
def readMessage (S : CodedInputStream σ F) (parse : M → σ → Outcome σ M) (m : M) (s : σ) :
    Outcome σ M :=
  match S.pushMessage s with
  | .error _ => .failed m
  | .ok (_, s) =>
    match parse m s with
    | .ok m s => if S.consumedEntireMessage s then .ok m (S.popLimit s) else .failed m
    | .failed m => .failed m
    | .unfinished => .unfinished

/-! ## Jumps and buffers make no difference -/

/-- The expected tags are those of the labels they go to. -/
def Parser.Threaded (P : Parser σ M F) : Prop :=
  ∀ n c, P.fields n = some c → ∀ tag n', (tag, n') ∈ c.expects →
    tag ≠ 0 ∧ P.matching tag = some n'

/-- No field gives bytes back. -/
def Parser.Shrinks (P : Parser Cursor M F) : Prop :=
  ∀ n c, P.fields n = some c → ∀ m cur m' cur', c.read m cur = .ok m' cur' →
    cur'.rest.length ≤ cur.rest.length

/-- Two cases of one switch, over two streams. -/
structure Case.Agrees (At : σ → τ → Prop) (c : Case σ M) (d : Case τ M) : Prop where
  wireType : c.wireType = d.wireType
  expects : c.expects = d.expects
  ends : c.ends = d.ends
  read : ∀ m s t, At s t → Outcome.Rel At (c.read m s) (d.read m t)

structure Parser.Agrees (At : σ → τ → Prop) (P : Parser σ M F) (Q : Parser τ M F) : Prop where
  missing : ∀ n, P.fields n = none ↔ Q.fields n = none
  fields : ∀ n c d, P.fields n = some c → Q.fields n = some d → c.Agrees At d
  addUnknown : P.addUnknown = Q.addUnknown

theorem Parser.Agrees.cases {At : σ → τ → Prop} {P : Parser σ M F} {Q : Parser τ M F}
    (h : P.Agrees At Q) (n : Nat) :
    (P.fields n = none ∧ Q.fields n = none) ∨
      ∃ c d, P.fields n = some c ∧ Q.fields n = some d ∧ c.Agrees At d := by
  cases hp : P.fields n with
  | none => exact .inl ⟨rfl, (h.missing n).1 hp⟩
  | some c =>
    cases hq : Q.fields n with
    | none =>
      rw [(h.missing n).2 hq] at hp
      cases hp
    | some d => exact .inr ⟨c, d, rfl, rfl, h.fields n c d hp hq⟩

theorem Parser.Agrees.matching {At : σ → τ → Prop} {P : Parser σ M F} {Q : Parser τ M F}
    (h : P.Agrees At Q) (tag : Nat) : P.matching tag = Q.matching tag := by
  unfold Parser.matching
  rcases h.cases (tag / 8) with ⟨hp, hq⟩ | ⟨c, d, hp, hq, hcd⟩
  · rw [hp, hq]
  · simp only [hp, hq, hcd.wireType]

theorem matching_isSome {P : Parser σ M F} {tag n : Nat} (h : P.matching tag = some n) :
    (P.fields n).isSome := by
  unfold Parser.matching at h
  split at h
  · cases h
  · next c hc =>
    split at h
    · cases h
      rw [hc]
      rfl
    · cases h

theorem readVarint32_shorter {bytes rest : List UInt8} {n : Nat}
    (h : readVarint32 bytes = some (n, rest)) : rest.length < bytes.length := by
  unfold readVarint32 at h
  cases hv : readVarint 9 bytes with
  | none =>
    rw [hv] at h
    cases h
  | some p =>
    rw [hv] at h
    cases h
    exact readVarint_shorter hv

theorem readTag_shorter {c : Cursor} (h : c.readTag.1 ≠ 0) :
    c.readTag.2.rest.length < c.rest.length := by
  unfold Cursor.readTag at h ⊢
  split at h
  · exact absurd rfl h
  · split at h
    · exact absurd rfl h
    · next tag rest hread => exact readVarint32_shorter hread

/-- A jump goes where the next tag would have led. -/
theorem jump_spec {S : CodedInputStream σ F} {W : WireFormat F} {At : σ → Cursor → Prop}
    (hS : S.Lawful W At) {c : Cursor} :
    ∀ {es : List (Nat × Nat)} {s s' : σ} {n : Option Nat}, At s c → jump S es s = (n, s') →
      (n = none ∧ At s' c) ∨
        ∃ tag n', n = some n' ∧ (tag, n') ∈ es ∧ c.readTag.1 = tag ∧ At s' c.readTag.2 := by
  intro es
  induction es with
  | nil =>
    intro s s' n hat h
    cases h
    exact .inl ⟨rfl, hat⟩
  | cons e es ih =>
    intro s s' n hat h
    obtain ⟨tag, n'⟩ := e
    rw [jump] at h
    cases he : S.expectTag tag s with
    | mk b s₁ =>
      rw [he] at h
      cases b with
      | true =>
        cases h
        have hsee := hS.expectTag tag hat (by rw [he])
        rw [he] at hsee
        exact .inr ⟨tag, n', rfl, List.mem_cons_self, hsee⟩
      | false =>
        have hmiss := hS.expectTag_not tag hat (by rw [he])
        rw [he] at hmiss
        rcases ih hmiss h with hnone | ⟨t, n'', hn, hmem, hrest⟩
        · exact .inl hnone
        · exact .inr ⟨t, n'', hn, List.mem_cons_of_mem _ hmem, hrest⟩

theorem jump_plain (W : WireFormat F) (es : List (Nat × Nat)) (c : Cursor) :
    jump W.plain es c = (none, c) := by
  induction es with
  | nil => rfl
  | cons e es ih => exact ih

theorem skipField_le {W : WireFormat F} (hW : W.Sound) {tag : Nat} {c c' : Cursor} {f : F}
    (h : W.plain.skipField tag c = .ok (f, c')) : c'.rest.length ≤ c.rest.length := by
  simp only [WireFormat.plain] at h
  split at h
  · cases h
  · next g rest hg =>
    cases h
    exact hW.skip_shorter _ _ _ _ _ hg

/-- The turns that are enough from a place in the bytes. -/
def turns : Option Nat → Cursor → Nat
  | none, c => 2 * c.rest.length + 1
  | some _, c => 2 * c.rest.length + 2

theorem head_plain (W : WireFormat F) (Q : Parser Cursor M F)
    (next : Option Nat → M → Cursor → Outcome Cursor M) (m : M) (c : Cursor) :
    Q.head W.plain next m c =
      if c.readTag.1 = 0 then .ok m c.readTag.2
      else
        match Q.matching c.readTag.1 with
        | some n => next (some n) m c.readTag.2
        | none => Q.uninterpreted W.plain next c.readTag.1 m c.readTag.2 := rfl

theorem leave_plain (W : WireFormat F) (d : Case Cursor M)
    (next : Option Nat → M → Cursor → Outcome Cursor M) (m : M) (c : Cursor) :
    d.leave W.plain next m c = next none m c := by
  unfold Case.leave
  rw [jump_plain]
  show (if d.ends then next none m c else next none m c) = _
  rw [ite_self]

/-- `E` holds wherever a parser may end: at matching places, and where `readTag` has found no tag. -/
structure Ending (S : CodedInputStream σ F) (At E : σ → Cursor → Prop) : Prop where
  place : ∀ {s c}, At s c → E s c
  stop : ∀ {s c}, At s c → c.readTag.1 = 0 → E (S.readTag s).2 c.readTag.2

theorem plain_ending (W : WireFormat F) : Ending W.plain Eq Eq where
  place h := h
  stop h _ := by rw [h]; rfl

theorem CodedInputStream.Lawful.ending {S : CodedInputStream σ F} {W : WireFormat F}
    {At : σ → Cursor → Prop} (hS : S.Lawful W At) : Ending S At (S.Ends At) where
  place := .inl
  stop := hS.readTag_ends

/-- The two loops agree with `k` turns of the first, and enough of the second. -/
def RunsAgree (S : CodedInputStream σ F) (W : WireFormat F) (At E : σ → Cursor → Prop)
    (P : Parser σ M F) (Q : Parser Cursor M F) (k : Nat) : Prop :=
  ∀ (k' : Nat) (l : Option Nat) (m : M) (s : σ) (c : Cursor), At s c →
    (∀ n, l = some n → (Q.fields n).isSome) → turns l c ≤ k → turns l c ≤ k' →
    Outcome.Rel E (P.run S k l m s) (Q.run W.plain k' l m c)

section Agreement

variable {S : CodedInputStream σ F} {W : WireFormat F} {At E : σ → Cursor → Prop}
  {P : Parser σ M F} {Q : Parser Cursor M F} (hS : S.Lawful W At) (hE : Ending S At E)
  (hW : W.Sound) (hPQ : P.Agrees At Q)

include hS hE hW hPQ

theorem runsAgree_uninterpreted {k k' : Nat} (ih : RunsAgree S W At E P Q k) {tag : Nat} {m : M}
    {s : σ} {c : Cursor} (hat : At s c) (hk : 2 * c.rest.length + 1 ≤ k)
    (hk' : 2 * c.rest.length + 1 ≤ k') :
    Outcome.Rel E (P.uninterpreted S (P.run S k) tag m s)
      (Q.uninterpreted W.plain (Q.run W.plain k') tag m c) := by
  unfold Parser.uninterpreted
  by_cases hend : tag % 8 = typeEndGroup
  · rw [if_pos hend, if_pos hend]
    exact ⟨rfl, hE.place hat⟩
  rw [if_neg hend, if_neg hend, hPQ.addUnknown]
  rcases (hS.skipField tag hat).cases with ⟨f, s₁, c₁, hx, hy, hat₁⟩ | ⟨left, hx, hy⟩
  · rw [hx, hy]
    have hle := skipField_le hW hy
    refine ih k' none _ _ _ hat₁ (by rintro n ⟨⟩) ?_ ?_
    · show 2 * _ + 1 ≤ k
      omega
    · show 2 * _ + 1 ≤ k'
      omega
  · rw [hx, hy]
    exact rfl

theorem runsAgree_head {k k' : Nat} (ih : RunsAgree S W At E P Q k) {m : M} {s : σ} {c : Cursor}
    (hat : At s c) (hk : 2 * c.rest.length ≤ k) (hk' : 2 * c.rest.length ≤ k') :
    Outcome.Rel E (P.head S (P.run S k) m s)
      (Q.head W.plain (Q.run W.plain k') m c) := by
  have htag := hS.readTag hat
  rw [head_plain]
  unfold Parser.head
  simp only [htag, hPQ.matching]
  by_cases hzero : c.readTag.1 = 0
  · rw [if_pos hzero, if_pos hzero]
    exact ⟨rfl, hE.stop hat hzero⟩
  rw [if_neg hzero, if_neg hzero]
  have hat' := hS.readTag_at hat (.inl hzero)
  have hshort := readTag_shorter hzero
  cases hn : Q.matching c.readTag.1 with
  | some n =>
    refine ih k' (some n) m _ _ hat' ?_ ?_ ?_
    · rintro n' ⟨⟩
      exact matching_isSome hn
    · show 2 * _ + 2 ≤ k
      omega
    · show 2 * _ + 2 ≤ k'
      omega
  | none => exact runsAgree_uninterpreted hS hE hW hPQ ih hat' (by omega) (by omega)

omit hW hPQ in
/-- Behind a field, where the first loop may jump and the second goes back to its head. -/
theorem runsAgree_leave (hthread : Q.Threaded) {k k' n : Nat} (ih : RunsAgree S W At E P Q k)
    {cp : Case σ M} {cq : Case Cursor M} (hq : Q.fields n = some cq) (hagree : cp.Agrees At cq)
    {m : M} {s : σ} {c : Cursor} (hat : At s c) (hk : 2 * c.rest.length + 1 ≤ k)
    (hk' : 2 * c.rest.length + 1 ≤ k') :
    Outcome.Rel E (cp.leave S (P.run S k) m s)
      (cq.leave W.plain (Q.run W.plain k') m c) := by
  have hback : ∀ {s}, At s c →
      Outcome.Rel E (P.run S k none m s) (Q.run W.plain k' none m c) :=
    fun hat => ih k' none m _ c hat (by rintro n ⟨⟩) hk hk'
  rw [leave_plain]
  unfold Case.leave
  rcases hjump : jump S cp.expects s with ⟨l, s₁⟩
  rcases jump_spec hS hat hjump with ⟨rfl, hat₁⟩ | ⟨tag, n', rfl, hmem, htag, hat₁⟩
  · cases hends : cp.ends with
    | false => exact hback hat₁
    | true =>
      rcases hexpect : S.expectAtEnd s₁ with ⟨b, s₂⟩
      show Outcome.Rel E (match S.expectAtEnd s₁ with
        | (true, s) => _ | (false, s) => _) _
      rw [hexpect]
      cases b with
      | false =>
        have hmiss := hS.expectAtEnd_not hat₁ (by rw [hexpect])
        rw [hexpect] at hmiss
        exact hback hmiss
      | true =>
        have hsee := hS.expectAtEnd hat₁ (by rw [hexpect])
        rw [hexpect] at hsee
        obtain ⟨k', rfl⟩ : ∃ j, k' = j + 1 := ⟨k' - 1, by omega⟩
        have hread : c.readTag = (0, { c with ended := true }) := by
          unfold Cursor.readTag
          rw [hsee.1]
        show Outcome.Rel E _ (Q.head W.plain (Q.run W.plain k') m c)
        rw [head_plain, hread]
        exact ⟨rfl, hE.place hsee.2⟩
  · -- the tag that was seen is the one that the second loop reads next
    rw [hagree.expects] at hmem
    obtain ⟨hpos, hmatch⟩ := hthread n cq hq tag n' hmem
    obtain ⟨k', rfl⟩ : ∃ j, k' = j + 1 := ⟨k' - 1, by omega⟩
    rw [← htag] at hpos hmatch
    have hshort := readTag_shorter hpos
    show Outcome.Rel E (P.run S k (some n') m s₁)
      (Q.head W.plain (Q.run W.plain k') m c)
    rw [head_plain, if_neg hpos, hmatch]
    refine ih k' (some n') m _ _ hat₁ ?_ ?_ ?_
    · rintro n'' ⟨⟩
      exact matching_isSome hmatch
    · show 2 * _ + 2 ≤ k
      omega
    · show 2 * _ + 2 ≤ k'
      omega

omit hW in
theorem runsAgree_label (hthread : Q.Threaded) (hshrink : Q.Shrinks) {k k' n : Nat}
    (ih : RunsAgree S W At E P Q k) {m : M} {s : σ} {c : Cursor} (hat : At s c)
    (hn : (Q.fields n).isSome) (hk : 2 * c.rest.length + 1 ≤ k) (hk' : 2 * c.rest.length + 1 ≤ k') :
    Outcome.Rel E (P.label S (P.run S k) n m s)
      (Q.label W.plain (Q.run W.plain k') n m c) := by
  unfold Parser.label
  rcases hPQ.cases n with ⟨-, hnone⟩ | ⟨cp, cq, hp, hq, hagree⟩
  · rw [hnone] at hn
    cases hn
  rw [hp, hq]
  rcases (hagree.read m s c hat).cases with ⟨m₁, s₁, c₁, hx, hy, hat₁⟩ | ⟨m₁, hx, hy⟩
  · simp only [hx, hy]
    have hle := hshrink n cq hq m c m₁ c₁ hy
    exact runsAgree_leave hS hE hthread ih hq hagree hat₁ (by omega) (by omega)
  · simp only [hx, hy]
    exact rfl

theorem runs_agree (hthread : Q.Threaded) (hshrink : Q.Shrinks) (k : Nat) :
    RunsAgree S W At E P Q k := by
  induction k with
  | zero =>
    intro k' l m s c _ _ hk
    cases l <;> simp only [turns] at hk <;> omega
  | succ k ih =>
    intro k' l m s c hat hl hk hk'
    obtain ⟨k', rfl⟩ : ∃ j, k' = j + 1 := by
      cases l <;> simp only [turns] at hk' <;> exact ⟨k' - 1, by omega⟩
    cases l with
    | none =>
      simp only [turns] at hk hk'
      exact runsAgree_head hS hE hW hPQ ih hat (by omega) (by omega)
    | some n =>
      simp only [turns] at hk hk'
      exact runsAgree_label hS hE hPQ hthread hshrink ih hat (hl n rfl) (by omega) (by omega)

omit hE in
/-- **Jumps and buffers make no difference**: the generated loop over any lawful stream does what the
plain loop does, which reads every tag from the bytes. -/
theorem parse_rel (hthread : Q.Threaded) (hshrink : Q.Shrinks) {m : M} {s : σ} {c : Cursor}
    (hat : At s c) : Outcome.Rel (S.Ends At) (P.parse S m s) (Q.parse W.plain m c) := by
  refine runs_agree hS hS.ending hW hPQ hthread hshrink _ _ none m s c hat (by rintro n ⟨⟩) ?_ ?_
  · rw [hS.bytesUntilLimit hat]
    exact Nat.le_refl _
  · exact Nat.le_refl _

end Agreement

/-! ## The loop without jumps -/

/-- The same switch, going back to the head of the loop behind every field. -/
def Parser.loop (P : Parser σ M F) : Parser σ M F where
  fields n := (P.fields n).map fun c => { c with expects := [], ends := false }
  addUnknown := P.addUnknown

theorem loop_matching (P : Parser σ M F) (tag : Nat) : P.loop.matching tag = P.matching tag := by
  unfold Parser.matching
  cases hn : P.fields (tag / 8) with
  | none => simp [Parser.loop, hn]
  | some c => simp [Parser.loop, hn]

theorem loop_run_plain (W : WireFormat F) (Q : Parser Cursor M F) (k : Nat) :
    ∀ (l : Option Nat) (m : M) (c : Cursor),
      Q.loop.run W.plain k l m c = Q.run W.plain k l m c := by
  induction k with
  | zero => exact fun _ _ _ => rfl
  | succ k ih =>
    intro l m c
    have hnext : Q.loop.run W.plain k = Q.run W.plain k := by
      funext l m c
      exact ih l m c
    cases l with
    | none =>
      show Q.loop.head W.plain (Q.loop.run W.plain k) m c = Q.head W.plain (Q.run W.plain k) m c
      rw [hnext, head_plain, head_plain, loop_matching]
      rfl
    | some n =>
      show Q.loop.label W.plain (Q.loop.run W.plain k) n m c =
        Q.label W.plain (Q.run W.plain k) n m c
      rw [hnext]
      unfold Parser.label
      cases hn : Q.fields n with
      | none => simp [Parser.loop, hn]
      | some d =>
        have hloop : Q.loop.fields n = some { d with expects := [], ends := false } := by
          simp [Parser.loop, hn]
        rw [hloop]
        simp only [leave_plain]

theorem loop_parse_plain (W : WireFormat F) (Q : Parser Cursor M F) (m : M) (c : Cursor) :
    Q.loop.parse W.plain m c = Q.parse W.plain m c :=
  loop_run_plain W Q _ none m c

theorem loop_threaded (Q : Parser σ M F) : Q.loop.Threaded := by
  intro n c hc tag n' hmem
  obtain ⟨d, -, rfl⟩ := Option.map_eq_some_iff.mp hc
  exact (List.not_mem_nil hmem).elim

theorem Parser.Shrinks.loop {Q : Parser Cursor M F} (h : Q.Shrinks) : Q.loop.Shrinks := by
  intro n c hc
  obtain ⟨d, hd, rfl⟩ := Option.map_eq_some_iff.mp hc
  exact h n d hd

theorem Parser.Agrees.loop {At : σ → τ → Prop} {P : Parser σ M F} {Q : Parser τ M F}
    (h : P.Agrees At Q) : P.loop.Agrees At Q.loop where
  missing n := by
    simp only [Parser.loop, Option.map_eq_none_iff]
    exact h.missing n
  fields n c d hc hd := by
    obtain ⟨c₀, hc₀, rfl⟩ := Option.map_eq_some_iff.mp hc
    obtain ⟨d₀, hd₀, rfl⟩ := Option.map_eq_some_iff.mp hd
    have hcd := h.fields n c₀ d₀ hc₀ hd₀
    exact ⟨hcd.wireType, rfl, rfl, hcd.read⟩
  addUnknown := h.addUnknown

/-- **The jumps are an optimisation**: over any two lawful streams at the same place, the loop with
them and the loop without come to the same end, or both to what is no tag. -/
theorem parse_loop_rel {S : CodedInputStream σ F} {S' : CodedInputStream τ F} {W : WireFormat F}
    {At : σ → Cursor → Prop} {At' : τ → Cursor → Prop} {P : Parser σ M F} {P' : Parser τ M F}
    {Q : Parser Cursor M F} (hS : S.Lawful W At) (hS' : S'.Lawful W At') (hW : W.Sound)
    (hP : P.Agrees At Q) (hP' : P'.Agrees At' Q) (hthread : Q.Threaded) (hshrink : Q.Shrinks)
    {m : M} {s : σ} {s' : τ} {c : Cursor} (hat : At s c) (hat' : At' s' c) :
    Outcome.Rel (fun s s' => (∃ c, At s c ∧ At' s' c) ∨
        S.consumedEntireMessage s = false ∧ S'.consumedEntireMessage s' = false)
      (P.parse S m s) (P'.loop.parse S' m s') := by
  have hopt := parse_rel hS hW hP hthread hshrink (m := m) hat
  have hloop := parse_rel hS' hW hP'.loop (loop_threaded Q) hshrink.loop (m := m) hat'
  rw [loop_parse_plain] at hloop
  rcases hopt.cases with ⟨m₁, t, c₁, hx, hy, ht⟩ | ⟨m₁, hx, hy⟩
  · rw [hy] at hloop
    rcases hloop.cases with ⟨m₂, t', c₂, hx', hy', ht'⟩ | ⟨m₂, hx', hy'⟩
    · cases hy'
      rw [hx, hx']
      refine ⟨rfl, ?_⟩
      rcases ht with ht | ⟨hs, hc⟩
      · rcases ht' with ht' | ⟨hs', hc⟩
        · exact .inl ⟨c₁, ht, ht'⟩
        · exact .inr ⟨(hS.consumedEntireMessage ht).trans hc, hs'⟩
      · exact .inr ⟨hs, (hS'.consumed_eq ht').trans hc⟩
    · cases hy'
  · rw [hy] at hloop
    rcases hloop.cases with ⟨m₂, t', c₂, hx', hy', ht'⟩ | ⟨m₂, hx', hy'⟩
    · cases hy'
    · cases hy'
      rw [hx, hx']
      exact rfl

end Wire
