import TrezorPlugin.Lib.MessageParser

/-!
# Generated message classes

What a message holds is an element of an additive monoid: nothing at all, and one
message put on top of another.  A generated class works on objects with cached
sizes and storage of their own; `MessageClass.Lawful` says through a view that its
operations are those of the monoid, and that a serialized message, parsed into an
object, is put on top of what the object held.

    Yields Q bs v:  parsing bs ++ r into m is parsing r into an m' with view m' = view m + v
    view (parse (serialize x)) = view x                     (parseFromArray_serializeToArray)
-/

namespace Wire

variable {M F V : Type}

/-! ## The plain loop -/

/-- What parsing from `c` keeps: a condition on the message, the bytes outside, and no byte comes
back. -/
def Outcome.Keeps (I : M → Prop) (c : Cursor) : Outcome Cursor M → Prop
  | .ok m c' => I m ∧ c'.outer = c.outer ∧ c'.rest.length ≤ c.rest.length
  | .failed m => I m
  | .unfinished => False

theorem Outcome.Keeps.mono {I : M → Prop} {c c' : Cursor} {x : Outcome Cursor M}
    (h : x.Keeps I c') (ho : c'.outer = c.outer) (hle : c'.rest.length ≤ c.rest.length) :
    x.Keeps I c := by
  cases x with
  | ok m c'' => exact ⟨h.1, h.2.1.trans ho, Nat.le_trans h.2.2 hle⟩
  | failed m => exact h
  | unfinished => exact h

theorem Outcome.Keeps.map {N : Type} {J : N → Prop} {I : M → Prop} {c : Cursor}
    {x : Outcome Cursor N} (h : x.Keeps J c) {f : N → M} (hf : ∀ n, J n → I (f n)) :
    (x.map f).Keeps I c := by
  cases x with
  | ok n c' => exact ⟨hf n h.1, h.2⟩
  | failed n => exact hf n h
  | unfinished => exact h

/-- No field of the switch is read under the tag of `f`, and `f` can be read inside of `depth`
messages. -/
structure Parser.Foreign (Q : Parser Cursor M F) (W : WireFormat F) (depth : Nat) (f : F) : Prop where
  unmatched : Q.matching (W.tag f) = none
  fits : W.Fits depth f

/-- What the fields of a switch keep, inside of `depth` messages or more. -/
structure Parser.Keeps (Q : Parser Cursor M F) (W : WireFormat F) (depth : Nat) (I : M → Prop) :
    Prop where
  read : ∀ n d, Q.fields n = some d → ∀ m c, depth ≤ c.outer.length → I m → (d.read m c).Keeps I c
  addUnknown : ∀ m f, I m → Q.Foreign W depth f → I (Q.addUnknown m f)

variable {W : WireFormat F} {Q : Parser Cursor M F} {depth : Nat} {I : M → Prop}

theorem readTag_outer (c : Cursor) : c.readTag.2.outer = c.outer := by
  unfold Cursor.readTag
  split
  · rfl
  · split <;> rfl

theorem readTag_le (c : Cursor) : c.readTag.2.rest.length ≤ c.rest.length := by
  by_cases h : c.readTag.1 = 0
  · unfold Cursor.readTag at h ⊢
    split
    · exact Nat.le_refl _
    · split
      · exact Nat.le_refl _
      · next tag rest hread => exact Nat.le_of_lt (readVarint32_shorter hread)
  · exact Nat.le_of_lt (readTag_shorter h)

theorem readUInt32_keeps {m : Unit → M} {f : UInt32 → M} (hm : ∀ e, I (m e)) (hf : ∀ a, I (f a))
    (c : Cursor) : (put m f c.readUInt32).Keeps I c := by
  unfold Cursor.readUInt32
  cases hread : readVarint32 c.rest with
  | none => exact hm ()
  | some p => exact ⟨hf _, rfl, Nat.le_of_lt (readVarint32_shorter hread)⟩

theorem readString_keeps {m f : List UInt8 → M} (hm : ∀ t, I (m t)) (hf : ∀ a, I (f a))
    (torn : List UInt8 → List UInt8 → List UInt8) (old : List UInt8) (c : Cursor) :
    (put m f (c.readString torn old)).Keeps I c := by
  unfold Cursor.readString
  cases hread : readVarint32 c.rest with
  | none => exact hm _
  | some p =>
    obtain ⟨n, rest⟩ := p
    have hshort := readVarint32_shorter hread
    by_cases hfits : n < 2 ^ 31 ∧ n ≤ rest.length
    · simp only [if_pos hfits]
      refine ⟨hf _, rfl, ?_⟩
      show (rest.drop n).length ≤ _
      rw [List.length_drop]
      omega
    · simp only [if_neg hfits]
      exact hm _

/-- `k` turns are enough, from anywhere they should be, and keep `I`. -/
def RunsKeep (W : WireFormat F) (Q : Parser Cursor M F) (depth : Nat) (I : M → Prop) (k : Nat) :
    Prop :=
  ∀ (l : Option Nat) (m : M) (c : Cursor), depth ≤ c.outer.length →
    (∀ n, l = some n → (Q.fields n).isSome) → turns l c ≤ k → I m →
    (Q.run W.plain k l m c).Keeps I c

theorem keeps_uninterpreted (hW : W.Sound) (hQ : Q.Keeps W depth I) {k tag : Nat}
    (ih : RunsKeep W Q depth I k) {m : M} {c : Cursor} (hc : depth ≤ c.outer.length)
    (htag : Q.matching tag = none) (hk : 2 * c.rest.length + 1 ≤ k) (hm : I m) :
    (Q.uninterpreted W.plain (Q.run W.plain k) tag m c).Keeps I c := by
  unfold Parser.uninterpreted
  by_cases hend : tag % 8 = typeEndGroup
  · rw [if_pos hend]
    exact ⟨hm, rfl, Nat.le_refl _⟩
  rw [if_neg hend]
  simp only [WireFormat.plain]
  cases hskip : W.skip c.outer.length tag c.rest with
  | error left =>
    cases left with
    | none => exact hm
    | some f =>
      obtain ⟨htag', hfits⟩ := hW.left_fits _ _ _ _ hskip
      exact hQ.addUnknown m f hm ⟨htag' ▸ htag, hfits.mono hW hc⟩
  | ok p =>
    have hle := hW.skip_shorter _ _ _ _ _ hskip
    obtain ⟨htag', hfits⟩ := hW.skip_fits _ _ _ _ _ hskip
    have hadd : I (Q.addUnknown m p.1) :=
      hQ.addUnknown m p.1 hm ⟨htag' ▸ htag, hfits.mono hW hc⟩
    refine (ih none _ { c with rest := p.2 } hc (by rintro n ⟨⟩) ?_ hadd).mono rfl hle
    show 2 * p.2.length + 1 ≤ k
    omega

theorem keeps_head (hW : W.Sound) (hQ : Q.Keeps W depth I) {k : Nat}
    (ih : RunsKeep W Q depth I k) {m : M} {c : Cursor} (hc : depth ≤ c.outer.length)
    (hk : 2 * c.rest.length ≤ k) (hm : I m) :
    (Q.head W.plain (Q.run W.plain k) m c).Keeps I c := by
  rw [head_plain]
  by_cases hzero : c.readTag.1 = 0
  · rw [if_pos hzero]
    exact ⟨hm, readTag_outer c, readTag_le c⟩
  rw [if_neg hzero]
  have hshort := readTag_shorter hzero
  have hc' : depth ≤ c.readTag.2.outer.length := readTag_outer c ▸ hc
  cases hn : Q.matching c.readTag.1 with
  | some n =>
    refine (ih (some n) m _ hc' ?_ ?_ hm).mono (readTag_outer c) (readTag_le c)
    · rintro n' ⟨⟩
      exact matching_isSome hn
    · show 2 * _ + 2 ≤ k
      omega
  | none =>
    exact (keeps_uninterpreted hW hQ ih hc' hn (by omega) hm).mono (readTag_outer c) (readTag_le c)

theorem keeps_label (hQ : Q.Keeps W depth I) {k n : Nat} (ih : RunsKeep W Q depth I k) {m : M}
    {c : Cursor} (hc : depth ≤ c.outer.length) (hn : (Q.fields n).isSome)
    (hk : 2 * c.rest.length + 1 ≤ k) (hm : I m) :
    (Q.label W.plain (Q.run W.plain k) n m c).Keeps I c := by
  obtain ⟨d, hd⟩ := Option.isSome_iff_exists.mp hn
  have hread := hQ.read n d hd m c hc hm
  unfold Parser.label
  rw [hd]
  cases hx : d.read m c with
  | unfinished =>
    rw [hx] at hread
    exact hread.elim
  | failed m' =>
    rw [hx] at hread
    simp only [hx]
    exact hread
  | ok m' c' =>
    rw [hx] at hread
    obtain ⟨hm', ho, hle⟩ := hread
    simp only [hx, leave_plain]
    refine (ih none m' c' (ho ▸ hc) (by rintro n ⟨⟩) ?_ hm').mono ho hle
    show 2 * _ + 1 ≤ k
    omega

theorem runs_keep (hW : W.Sound) (hQ : Q.Keeps W depth I) (k : Nat) : RunsKeep W Q depth I k := by
  induction k with
  | zero =>
    intro l m c _ _ hk
    cases l <;> simp only [turns] at hk <;> omega
  | succ k ih =>
    intro l m c hc hl hk hm
    cases l with
    | none =>
      simp only [turns] at hk
      exact keeps_head hW hQ ih hc (by omega) hm
    | some n =>
      simp only [turns] at hk
      exact keeps_label hQ ih hc (hl n rfl) (by omega) hm

/-- **What every field keeps, the parser keeps**, and it comes to an end. -/
theorem parse_keeps (hW : W.Sound) (hQ : Q.Keeps W depth I) {m : M} (hm : I m) {c : Cursor}
    (hc : depth ≤ c.outer.length) : (Q.parse W.plain m c).Keeps I c :=
  runs_keep hW hQ _ none m c hc (by rintro n ⟨⟩) (Nat.le_refl _) hm

/-- Every field takes its bytes and comes to an end, and the expected tags are right. -/
structure Parser.Regular (Q : Parser Cursor M F) (W : WireFormat F) : Prop where
  keeps : Q.Keeps W 0 fun _ => True
  threaded : Q.Threaded

theorem Parser.Regular.shrinks (h : Q.Regular W) : Q.Shrinks := by
  intro n d hd m c m' c' hread
  have hkeep := h.keeps.read n d hd m c (Nat.zero_le _) trivial
  rw [hread] at hkeep
  exact hkeep.2.2

theorem Parser.Regular.agrees (h : Q.Regular W) : Q.Agrees Eq Q where
  missing _ := Iff.rfl
  fields n d d' hd hd' := by
    rw [hd] at hd'
    cases hd'
    refine ⟨rfl, rfl, rfl, ?_⟩
    rintro m c _ rfl
    have hkeep := h.keeps.read n d hd m c (Nat.zero_le _) trivial
    cases hx : d.read m c with
    | ok m' c' => exact ⟨rfl, rfl⟩
    | failed m' => exact rfl
    | unfinished =>
      rw [hx] at hkeep
      exact hkeep.elim
  addUnknown := rfl

/-- More turns than enough change nothing. -/
theorem run_enough (hW : W.Sound) (hQ : Q.Regular W) {k : Nat} {c : Cursor}
    (hk : 2 * c.rest.length + 1 ≤ k) (m : M) :
    Q.run W.plain k none m c = Q.parse W.plain m c := by
  have hrel := runs_agree (plain_lawful W) (plain_ending W) hW hQ.agrees hQ.threaded hQ.shrinks k _
    none m c c rfl
    (by rintro n ⟨⟩) hk (Nat.le_refl _)
  rcases hrel.cases with ⟨m', c', c'', hx, hy, rfl⟩ | ⟨m', hx, hy⟩
  · rw [hx]
    exact hy.symm
  · rw [hx]
    exact hy.symm

theorem parse_end (m : M) {c : Cursor} (h : c.rest = []) :
    Q.parse W.plain m c = .ok m { c with ended := true } := by
  have hread : c.readTag = (0, { c with ended := true }) := by
    unfold Cursor.readTag
    rw [h]
  show Q.head W.plain _ m c = _
  rw [head_plain, hread]
  rfl

theorem parse_field (hW : W.Sound) (hQ : Q.Regular W) {m m' : M} {c c' : Cursor} {n : Nat}
    {d : Case Cursor M} (htag : c.readTag.1 ≠ 0) (hn : Q.matching c.readTag.1 = some n)
    (hd : Q.fields n = some d) (hread : d.read m c.readTag.2 = .ok m' c') :
    Q.parse W.plain m c = Q.parse W.plain m' c' := by
  have hshort := readTag_shorter htag
  have hle := hQ.shrinks n d hd m _ m' c' hread
  obtain ⟨k, hk⟩ : ∃ k, 2 * c.rest.length = k + 1 := ⟨2 * c.rest.length - 1, by omega⟩
  show Q.head W.plain (Q.run W.plain (2 * c.rest.length)) m c = _
  rw [head_plain, if_neg htag, hn, hk]
  show Q.label W.plain (Q.run W.plain k) n m c.readTag.2 = _
  simp only [Parser.label, hd, hread, leave_plain]
  exact run_enough hW hQ (by omega) m'

theorem parse_unknown (hW : W.Sound) (hQ : Q.Regular W) {m : M} {c : Cursor} (f : F)
    (rest : List UInt8) (htag : c.readTag.1 ≠ 0) (hn : Q.matching c.readTag.1 = none)
    (hend : c.readTag.1 % 8 ≠ typeEndGroup)
    (hskip : W.skip c.readTag.2.outer.length c.readTag.1 c.readTag.2.rest = .ok (f, rest)) :
    Q.parse W.plain m c = Q.parse W.plain (Q.addUnknown m f) { c.readTag.2 with rest := rest } := by
  have hshort := readTag_shorter htag
  have hle := hW.skip_shorter _ _ _ _ _ hskip
  show Q.head W.plain (Q.run W.plain (2 * c.rest.length)) m c = _
  rw [head_plain, if_neg htag, hn]
  simp only [Parser.uninterpreted, if_neg hend, WireFormat.plain, hskip]
  refine run_enough hW hQ ?_ _
  show 2 * rest.length + 1 ≤ _
  omega

/-! ## Reading what was written -/

theorem readVarint32_varint {n : Nat} (h : n < 2 ^ 32) (r : List UInt8) :
    readVarint32 (varint 4 n ++ r) = some (n, r) := by
  unfold readVarint32
  rw [readVarint_varint (by omega) (by omega), Option.map_some, Nat.mod_eq_of_lt h]

theorem varint_ne_nil (k n : Nat) : varint k n ≠ [] := by
  cases k with
  | zero => exact List.cons_ne_nil _ _
  | succ k =>
    rw [varint]
    split <;> exact List.cons_ne_nil _ _

theorem readTag_varint {tag : Nat} (h : tag < 2 ^ 32) (r : List UInt8) (outer : List (List UInt8))
    (b : Bool) : Cursor.readTag ⟨varint 4 tag ++ r, outer, b⟩ = (tag, ⟨r, outer, false⟩) := by
  unfold Cursor.readTag
  split
  · next hnil => exact absurd (List.append_eq_nil_iff.mp hnil).1 (varint_ne_nil 4 tag)
  · simp only [readVarint32_varint h]

theorem readUInt32_varint (value : UInt32) (r : List UInt8) (outer : List (List UInt8)) (b : Bool) :
    Cursor.readUInt32 ⟨varint 4 value.toNat ++ r, outer, b⟩ = .ok (value, ⟨r, outer, b⟩) := by
  have hlt : value.toNat < 2 ^ 32 := value.toNat_lt
  simp only [Cursor.readUInt32, readVarint32_varint hlt, UInt32.ofNat_toNat]

theorem readString_varint (torn : List UInt8 → List UInt8 → List UInt8) (old : List UInt8)
    {value : List UInt8} (h : value.length < 2 ^ 31) (r : List UInt8) (outer : List (List UInt8))
    (b : Bool) : Cursor.readString torn old ⟨varint 4 value.length ++ (value ++ r), outer, b⟩ =
      .ok (value, ⟨r, outer, b⟩) := by
  have hfits : value.length < 2 ^ 31 ∧ value.length ≤ (value ++ r).length := by
    refine ⟨h, ?_⟩
    rw [List.length_append]
    omega
  simp only [Cursor.readString, readVarint32_varint (show value.length < 2 ^ 32 by omega),
    if_pos hfits, List.take_left, List.drop_left]

theorem pushMessage_varint {depth : Nat} {bytes : List UInt8} (h : bytes.length < 2 ^ 32)
    (r : List UInt8) {outer : List (List UInt8)} (hdepth : outer.length < depth) (b : Bool) :
    Cursor.pushMessage depth ⟨varint 4 bytes.length ++ (bytes ++ r), outer, b⟩ =
      .ok ((), ⟨bytes, r :: outer, false⟩) := by
  simp only [Cursor.pushMessage, readVarint32_varint h, if_pos hdepth, List.take_left,
    List.drop_left]

/-! ## What bytes yield -/

variable [AddMonoid V] {view : M → V} {Valid : M → Prop}

/-- Parsed at `depth` into a valid message, the bytes put `v` on top of it. -/
def Yields (W : WireFormat F) (Q : Parser Cursor M F) (view : M → V) (Valid : M → Prop)
    (depth : Nat) (bytes : List UInt8) (v : V) : Prop :=
  ∀ m rest outer b, outer.length = depth → Valid m →
    ∃ m' b', Valid m' ∧ view m' = view m + v ∧
      Q.parse W.plain m ⟨bytes ++ rest, outer, b⟩ = Q.parse W.plain m' ⟨rest, outer, b'⟩

/-- `m'` is valid, and holds something on top of what `m` held. -/
structure Grows (view : M → V) (Valid : M → Prop) (m m' : M) : Prop where
  valid : Valid m'
  adds : ∃ v, view m' = view m + v

theorem Grows.refl {m : M} (hm : Valid m) : Grows view Valid m m := ⟨hm, 0, (add_zero _).symm⟩

theorem Grows.put {m m' m'' : M} {v : V} (h : Grows view Valid m m') (hvalid : Valid m'')
    (hview : view m'' = view m' + v) : Grows view Valid m m'' := by
  obtain ⟨w, hw⟩ := h.adds
  refine ⟨hvalid, w + v, ?_⟩
  rw [hview, hw, add_assoc]

theorem yields_nil : Yields W Q view Valid depth [] 0 :=
  fun m _ _ b _ hm => ⟨m, b, hm, (add_zero _).symm, rfl⟩

theorem Yields.append {bytes bytes' : List UInt8} {v w : V}
    (h : Yields W Q view Valid depth bytes v) (h' : Yields W Q view Valid depth bytes' w) :
    Yields W Q view Valid depth (bytes ++ bytes') (v + w) := by
  intro m rest outer b ho hm
  obtain ⟨m₁, b₁, hm₁, hview₁, hparse₁⟩ := h m (bytes' ++ rest) outer b ho hm
  obtain ⟨m₂, b₂, hm₂, hview₂, hparse₂⟩ := h' m₁ rest outer b₁ ho hm₁
  refine ⟨m₂, b₂, hm₂, ?_, ?_⟩
  · rw [hview₂, hview₁, add_assoc]
  · rw [List.append_assoc, hparse₁, hparse₂]

theorem yields_flatMap {α : Type} {write : α → List UInt8} {v : α → V} {xs : List α}
    (h : ∀ x ∈ xs, Yields W Q view Valid depth (write x) (v x)) :
    Yields W Q view Valid depth (xs.flatMap write) (xs.map v).sum := by
  induction xs with
  | nil => exact yields_nil
  | cons x xs ih =>
    rw [List.flatMap_cons, List.map_cons, List.sum_cons]
    exact (h x List.mem_cons_self).append (ih fun y hy => h y (List.mem_cons_of_mem x hy))

theorem sum_map_eq {α : Type} {v : α → V} {f : List α → V} (hnil : f [] = 0)
    (hcons : ∀ x xs, f (x :: xs) = v x + f xs) (xs : List α) : (xs.map v).sum = f xs := by
  induction xs with
  | nil => exact hnil.symm
  | cons x xs ih => rw [List.map_cons, List.sum_cons, ih, hcons]

theorem yields_if {p : Prop} [Decidable p] {bytes : List UInt8} {v : V}
    (h : p → Yields W Q view Valid depth bytes v) :
    Yields W Q view Valid depth (if p then bytes else []) (if p then v else 0) := by
  by_cases hp : p
  · rw [if_pos hp, if_pos hp]
    exact h hp
  · rw [if_neg hp, if_neg hp]
    exact yields_nil

/-- A field whose value is read by `read`, and put into the message by `f`. -/
theorem yields_field (hW : W.Sound) (hQ : Q.Regular W) {number wireType : Nat} {d : Case Cursor M}
    {body : List UInt8} {v : V} (hfits : makeTag number wireType < 2 ^ 32) (hpos : number ≠ 0)
    (htype : wireType < 8) (hd : Q.fields number = some d) (hwire : d.wireType = wireType)
    (hread : ∀ m rest outer, outer.length = depth → Valid m →
      ∃ m' b, d.read m ⟨body ++ rest, outer, false⟩ = .ok m' ⟨rest, outer, b⟩ ∧ Valid m' ∧
        view m' = view m + v) :
    Yields W Q view Valid depth (varint 4 (makeTag number wireType) ++ body) v := by
  intro m rest outer b ho hm
  obtain ⟨m', b', hread, hm', hview⟩ := hread m rest outer ho hm
  have hdiv : makeTag number wireType / 8 = number := by
    unfold makeTag
    omega
  have hmod : makeTag number wireType % 8 = wireType := by
    unfold makeTag
    omega
  have hne : makeTag number wireType ≠ 0 := by
    unfold makeTag
    omega
  have hmatch : Q.matching (makeTag number wireType) = some number := by
    unfold Parser.matching
    rw [hdiv, hd]
    exact if_pos (hmod.trans hwire.symm)
  have htag := readTag_varint hfits (body ++ rest) outer b
  refine ⟨m', b', hm', hview, ?_⟩
  rw [List.append_assoc]
  refine parse_field hW hQ ?_ (n := number) (d := d) ?_ hd ?_
  · rw [htag]
    exact hne
  · rw [htag]
    exact hmatch
  · rw [htag]
    exact hread

theorem yields_uint32 (hW : W.Sound) (hQ : Q.Regular W) {number : Nat} {d : Case Cursor M}
    {value : UInt32} {v : V} {set : M → UInt32 → M} (hpos : number ≠ 0) (hfits : number < 2 ^ 29)
    (hd : Q.fields number = some d) (hwire : d.wireType = typeVarint)
    (hread : ∀ m c, d.read m c = put (fun _ => m) (set m) c.readUInt32)
    (hset : ∀ m, Valid m → Valid (set m value) ∧ view (set m value) = view m + v) :
    Yields W Q view Valid depth (writeUInt32 number value) v := by
  refine yields_field hW hQ ?_ hpos (by decide) hd hwire ?_
  · unfold makeTag typeVarint
    omega
  · intro m rest outer _ hm
    refine ⟨set m value, false, ?_, hset m hm⟩
    rw [hread, readUInt32_varint]
    rfl

theorem yields_string (hW : W.Sound) (hQ : Q.Regular W) {number : Nat} {d : Case Cursor M}
    {value : List UInt8} {v : V} {set : M → List UInt8 → M} {old : M → List UInt8}
    (hpos : number ≠ 0) (hfits : number < 2 ^ 29) (hd : Q.fields number = some d)
    (hwire : d.wireType = typeLengthDelimited)
    (hread : ∀ m c, d.read m c = put (set m) (set m) (c.readString W.torn (old m)))
    (hsize : value.length < 2 ^ 31)
    (hset : ∀ m, Valid m → Valid (set m value) ∧ view (set m value) = view m + v) :
    Yields W Q view Valid depth (writeString number value) v := by
  refine yields_field hW hQ ?_ hpos (by decide) hd hwire ?_
  · unfold makeTag typeLengthDelimited
    omega
  · intro m rest outer _ hm
    refine ⟨set m value, false, ?_, hset m hm⟩
    rw [hread, List.append_assoc, readString_varint W.torn (old m) hsize]
    rfl

/-- The unknown fields of a message. -/
theorem yields_unknown (hW : W.Sound) (hQ : Q.Regular W) {fields : List F} {v : F → V}
    (hforeign : ∀ f ∈ fields, Q.Foreign W depth f)
    (hadd : ∀ m f, f ∈ fields → Valid m →
      Valid (Q.addUnknown m f) ∧ view (Q.addUnknown m f) = view m + v f) :
    Yields W Q view Valid depth (W.writeUnknown fields) (fields.map v).sum := by
  refine yields_flatMap ?_
  intro f hf m rest outer b ho hm
  obtain ⟨hm', hview⟩ := hadd m f hf hm
  have htag := readTag_varint (hW.tag_fits f) (W.body f ++ rest) outer b
  refine ⟨Q.addUnknown m f, false, hm', hview, ?_⟩
  rw [List.append_assoc, parse_unknown hW hQ f rest]
  · rw [htag]
  · rw [htag]
    exact hW.tag_pos f
  · rw [htag]
    exact (hforeign f hf).unmatched
  · rw [htag]
    exact hW.tag_type f
  · rw [htag, ho]
    exact (hforeign f hf).fits rest

/-- All of a message's bytes. -/
theorem Yields.parse {bytes : List UInt8} {v : V} (h : Yields W Q view Valid depth bytes v) {m : M}
    {outer : List (List UInt8)} (ho : outer.length = depth) (b : Bool) (hm : Valid m) :
    ∃ m', Q.parse W.plain m ⟨bytes, outer, b⟩ = .ok m' ⟨[], outer, true⟩ ∧ Valid m' ∧
      view m' = view m + v := by
  obtain ⟨m', b', hm', hview, hparse⟩ := h m [] outer b ho hm
  rw [List.append_nil] at hparse
  exact ⟨m', hparse.trans (parse_end m' rfl), hm', hview⟩

/-! ## Nested messages -/

section Nested

variable {σ : Type} {S : CodedInputStream σ F} {At : σ → Cursor → Prop}

theorem readMessage_rel (hS : S.Lawful W At) {parse : M → σ → Outcome σ M}
    {parse' : M → Cursor → Outcome Cursor M}
    (h : ∀ m s c, At s c → Outcome.Rel (S.Ends At) (parse m s) (parse' m c)) (m : M) {s : σ}
    {c : Cursor}
    (hat : At s c) :
    Outcome.Rel At (readMessage S parse m s) (readMessage W.plain parse' m c) := by
  unfold readMessage
  rcases (hS.pushMessage hat).cases with ⟨a, s₁, c₁, hx, hy, hat₁⟩ | ⟨e, hx, hy⟩
  · have hy' : W.plain.pushMessage c = .ok (a, c₁) := hy
    rw [hx, hy']
    rcases (h m s₁ c₁ hat₁).cases with ⟨m₂, s₂, c₂, hp, hq, hends⟩ | ⟨m₂, hp, hq⟩
    · simp only [hp, hq]
      have hend : S.consumedEntireMessage s₂ = W.plain.consumedEntireMessage c₂ :=
        hS.consumed_eq hends
      rw [hend]
      cases hb : W.plain.consumedEntireMessage c₂ with
      | true =>
        rcases hends with hat₂ | ⟨-, hno⟩
        · exact ⟨rfl, hS.popLimit hat₂⟩
        · cases hno.symm.trans hb
      | false => exact rfl
    · simp only [hp, hq]
      exact rfl
  · have hy' : W.plain.pushMessage c = .error e := hy
    rw [hx, hy']
    exact rfl

theorem readMessage_keeps {parse : M → Cursor → Outcome Cursor M} {m : M} (hm : I m) (c : Cursor)
    (h : ∀ c', c'.outer.length = c.outer.length + 1 → (parse m c').Keeps I c') :
    (readMessage W.plain parse m c).Keeps I c := by
  unfold readMessage
  cases hpush : W.plain.pushMessage c with
  | error e => exact hm
  | ok p =>
    obtain ⟨u, c₁⟩ := p
    have hinside : ∃ rest, c₁.outer = rest :: c.outer ∧
        c₁.rest.length + rest.length ≤ c.rest.length := by
      replace hpush : c.pushMessage W.depth = .ok (u, c₁) := hpush
      unfold Cursor.pushMessage at hpush
      split at hpush
      · cases hpush
      · next n rest hread =>
        split at hpush
        · cases hpush
          refine ⟨rest.drop n, rfl, ?_⟩
          have := readVarint32_shorter hread
          simp only [List.length_take, List.length_drop]
          omega
        · cases hpush
    obtain ⟨rest, ho, hle⟩ := hinside
    have hkeep := h c₁ (by rw [ho, List.length_cons])
    cases hx : parse m c₁ with
    | unfinished =>
      rw [hx] at hkeep
      exact hkeep.elim
    | failed m' =>
      rw [hx] at hkeep
      simp only [hx]
      exact hkeep
    | ok m' c₂ =>
      rw [hx] at hkeep
      obtain ⟨hm', ho', hle'⟩ := hkeep
      simp only [hx]
      split
      · refine ⟨hm', ?_, ?_⟩
        · show c₂.popLimit.outer = c.outer
          unfold Cursor.popLimit
          rw [ho', ho]
        · show c₂.popLimit.rest.length ≤ c.rest.length
          unfold Cursor.popLimit
          rw [ho', ho]
          simp only [List.length_append]
          omega
      · exact hm'

theorem readMessage_varint {parse : M → Cursor → Outcome Cursor M} {m m' : M}
    {bytes rest : List UInt8} {outer : List (List UInt8)} (hsize : bytes.length < 2 ^ 32)
    (hdepth : outer.length < W.depth)
    (h : parse m ⟨bytes, rest :: outer, false⟩ = .ok m' ⟨[], rest :: outer, true⟩) (b : Bool) :
    readMessage W.plain parse m ⟨varint 4 bytes.length ++ (bytes ++ rest), outer, b⟩ =
      .ok m' ⟨rest, outer, false⟩ := by
  have hpush : W.plain.pushMessage ⟨varint 4 bytes.length ++ (bytes ++ rest), outer, b⟩ =
      .ok ((), ⟨bytes, rest :: outer, false⟩) := pushMessage_varint hsize rest hdepth b
  unfold readMessage
  simp only [hpush, h]
  rfl

/-- A nested message, which the parser of its class puts on top of what `sub` holds. -/
theorem yields_message {N : Type} (hW : W.Sound) (hQ : Q.Regular W) {number : Nat}
    {d : Case Cursor M} {parse : N → Cursor → Outcome Cursor N} (sub : M → N) (set : M → N → M)
    {bytes : List UInt8} {v : V} (hpos : number ≠ 0) (hfits : number < 2 ^ 29)
    (hd : Q.fields number = some d) (hwire : d.wireType = typeLengthDelimited)
    (hread : ∀ m c, d.read m c = (readMessage W.plain parse (sub m) c).map (set m))
    (hsize : bytes.length < 2 ^ 32) (hdepth : depth < W.depth)
    (hparse : ∀ m outer, outer.length = depth + 1 → Valid m →
      ∃ x, parse (sub m) ⟨bytes, outer, false⟩ = .ok x ⟨[], outer, true⟩ ∧ Valid (set m x) ∧
        view (set m x) = view m + v) :
    Yields W Q view Valid depth (writeMessage number bytes.length bytes) v := by
  refine yields_field hW hQ ?_ hpos (by decide) hd hwire ?_
  · unfold makeTag typeLengthDelimited
    omega
  · intro m rest outer ho hm
    have hlen : (rest :: outer).length = depth + 1 := by
      rw [List.length_cons, ho]
    obtain ⟨x, hx, hset⟩ := hparse m (rest :: outer) hlen hm
    refine ⟨set m x, false, ?_, hset⟩
    rw [hread, List.append_assoc, readMessage_varint hsize (by omega) hx]
    rfl

end Nested

/-! ## Classes -/

/-- What the generated code of a message class defines, and its users call. -/
structure MessageClass (M F : Type) where
  new : M
  clear : M → M
  mergePartialFromCodedStream : {σ : Type} → CodedInputStream σ F → M → σ → Outcome σ M
  mergeFrom : M → M → M
  /-- The size, and the object with the sizes it has cached on the way. -/
  byteSize : M → Nat × M
  getCachedSize : M → Nat
  serializeWithCachedSizes : M → List UInt8
  isInitialized : M → Bool

/-- `ParseFromArray`: the object as it is left, and what is returned. -/
def MessageClass.parseFromArray {σ : Type} (C : MessageClass M F) (S : CodedInputStream σ F) (m : M)
    (input : σ) : M × Bool :=
  match C.mergePartialFromCodedStream S (C.clear m) input with
  | .ok m s => (m, C.isInitialized m && S.consumedEntireMessage s)
  | .failed m => (m, false)
  | .unfinished => (m, false)

/-- `SerializeToArray`, into an array that is large enough. -/
def MessageClass.serializeToArray (C : MessageClass M F) (m : M) : List UInt8 :=
  C.serializeWithCachedSizes (C.byteSize m).2

/-- The class is that of the messages `V`, for messages nested in `depth` others. -/
structure MessageClass.Lawful (C : MessageClass M F) (W : WireFormat F) (view : M → V)
    (Valid : M → Prop) (depth : Nat) : Prop where
  valid_new : Valid C.new
  view_new : view C.new = 0
  valid_clear : ∀ {m}, Valid m → Valid (C.clear m)
  view_clear : ∀ {m}, Valid m → view (C.clear m) = 0
  valid_mergeFrom : ∀ {m x}, Valid m → Valid x → Valid (C.mergeFrom m x)
  view_mergeFrom : ∀ {m x}, Valid m → Valid x → view (C.mergeFrom m x) = view m + view x
  valid_byteSize : ∀ {m}, Valid m → Valid (C.byteSize m).2
  view_byteSize : ∀ {m}, Valid m → view (C.byteSize m).2 = view m
  byteSize : ∀ {m}, Valid m → (C.serializeToArray m).length < 2 ^ 31 →
    (C.byteSize m).1 = (C.serializeToArray m).length ∧
      C.getCachedSize (C.byteSize m).2 = (C.serializeToArray m).length
  reads : ∀ {σ : Type} {S : CodedInputStream σ F} {At : σ → Cursor → Prop}, S.Lawful W At →
    ∀ {m s c}, At s c → Outcome.Rel (S.Ends At) (C.mergePartialFromCodedStream S m s)
      (C.mergePartialFromCodedStream W.plain m c)
  finishes : ∀ m c, (C.mergePartialFromCodedStream W.plain m c).Keeps (fun _ => True) c
  grows : ∀ {m}, Valid m → ∀ c, depth ≤ c.outer.length →
    (C.mergePartialFromCodedStream W.plain m c).Keeps (Grows view Valid m) c
  yields : ∀ {m x outer}, Valid m → Valid x → (C.serializeToArray x).length < 2 ^ 31 →
    outer.length = depth → ∀ b, ∃ m',
      C.mergePartialFromCodedStream W.plain m ⟨C.serializeToArray x, outer, b⟩ =
        .ok m' ⟨[], outer, true⟩ ∧ Valid m' ∧ view m' = view m + view x
  isInitialized : ∀ {m x}, Valid m → Valid x → view m = view x →
    C.isInitialized m = C.isInitialized x

variable {C : MessageClass M F}

/-- Parsing from a stream is parsing the bytes it stands at. -/
theorem parseFromArray_eq {σ : Type} {S : CodedInputStream σ F} {At : σ → Cursor → Prop}
    (hC : C.Lawful W view Valid depth) (hS : S.Lawful W At) {input : σ} {c : Cursor}
    (hat : At input c) (m : M) :
    C.parseFromArray S m input = C.parseFromArray W.plain m c := by
  unfold MessageClass.parseFromArray
  rcases (hC.reads hS (m := C.clear m) hat).cases with ⟨m', s', c', hx, hy, hends⟩ | ⟨m', hx, hy⟩
  · rw [hx, hy]
    have hend : S.consumedEntireMessage s' = W.plain.consumedEntireMessage c' :=
      hS.consumed_eq hends
    simp only [hend]
  · rw [hx, hy]

/-- **What was serialized is parsed back**, into any object and from any stream. -/
theorem parseFromArray_serializeToArray {σ : Type} {S : CodedInputStream σ F}
    {At : σ → Cursor → Prop} (hC : C.Lawful W view Valid 0) (hS : S.Lawful W At) {m x : M}
    (hm : Valid m) (hx : Valid x) (hsize : (C.serializeToArray x).length < 2 ^ 31) {input : σ}
    (hat : At input ⟨C.serializeToArray x, [], false⟩) :
    Valid (C.parseFromArray S m input).1 ∧ view (C.parseFromArray S m input).1 = view x ∧
      (C.parseFromArray S m input).2 = C.isInitialized x := by
  rw [parseFromArray_eq hC hS hat m]
  obtain ⟨m', hparse, hm', hview⟩ := hC.yields (hC.valid_clear hm) hx hsize
    (@List.length_nil (List UInt8)) false
  rw [hC.view_clear hm, zero_add] at hview
  unfold MessageClass.parseFromArray
  rw [hparse]
  refine ⟨hm', hview, ?_⟩
  show (C.isInitialized m' && true) = _
  rw [Bool.and_true]
  exact hC.isInitialized hm' hx hview

/-! ## Objects in use -/

/-- `CopyFrom` of another object. -/
def MessageClass.copyFrom (C : MessageClass M F) (m source : M) : M := C.mergeFrom (C.clear m) source

/-- What an object can become by use: `set m m'` when a setter takes `m` to `m'`, and a parse counts
whether it succeeded or not. -/
inductive MessageClass.Uses (C : MessageClass M F) (W : WireFormat F) (set : M → M → Prop) :
    M → M → Prop
  | refl (m) : Uses C W set m m
  | set {m₀ m m'} : Uses C W set m₀ m → set m m' → Uses C W set m₀ m'
  | clear {m₀ m} : Uses C W set m₀ m → Uses C W set m₀ (C.clear m)
  | mergeFrom {m₀ m source} : Uses C W set m₀ m → Uses C W set C.new source →
      Uses C W set m₀ (C.mergeFrom m source)
  | byteSize {m₀ m} : Uses C W set m₀ m → Uses C W set m₀ (C.byteSize m).2
  | parse {m₀ m} {σ : Type} {S : CodedInputStream σ F} {At : σ → Cursor → Prop} {input : σ}
      {c : Cursor} : Uses C W set m₀ m → S.Lawful W At → At input c →
      Uses C W set m₀ (C.parseFromArray S m input).1

/-- What a new object can have become. -/
def MessageClass.Built (C : MessageClass M F) (W : WireFormat F) (set : M → M → Prop) : M → Prop :=
  C.Uses W set C.new

theorem valid_parseFromArray (hC : C.Lawful W view Valid 0) {m : M} (hm : Valid m) (c : Cursor) :
    Valid (C.parseFromArray W.plain m c).1 := by
  have hkeep := hC.grows (hC.valid_clear hm) c (Nat.zero_le _)
  unfold MessageClass.parseFromArray
  cases hx : C.mergePartialFromCodedStream W.plain (C.clear m) c with
  | ok m' c' =>
    rw [hx] at hkeep
    exact hkeep.1.valid
  | failed m' =>
    rw [hx] at hkeep
    exact hkeep.valid
  | unfinished =>
    rw [hx] at hkeep
    exact hkeep.elim

/-- What the setters keep as well, every use keeps. -/
theorem MessageClass.Uses.valid (hC : C.Lawful W view Valid 0) {set : M → M → Prop}
    (hset : ∀ m m', set m m' → Valid m → Valid m') {m₀ m : M} (h : C.Uses W set m₀ m)
    (hm₀ : Valid m₀) : Valid m := by
  induction h with
  | refl => exact hm₀
  | set _ hm ih => exact hset _ _ hm (ih hm₀)
  | clear _ ih => exact hC.valid_clear (ih hm₀)
  | mergeFrom _ _ ih ih' => exact hC.valid_mergeFrom (ih hm₀) (ih' hC.valid_new)
  | byteSize _ ih => exact hC.valid_byteSize (ih hm₀)
  | parse _ hS hat ih =>
    rw [parseFromArray_eq hC hS hat _]
    exact valid_parseFromArray hC (ih hm₀) _

theorem view_copyFrom (hC : C.Lawful W view Valid depth) {m source : M} (hm : Valid m)
    (hs : Valid source) : view (C.copyFrom m source) = view source := by
  rw [MessageClass.copyFrom, hC.view_mergeFrom (hC.valid_clear hm) hs, hC.view_clear hm, zero_add]

/-! ## A format without groups -/

def FieldNumber : Type := { n : Nat // 0 < n ∧ n < 2 ^ 29 }
  deriving DecidableEq

/-- The unknown fields of the format below, which has no groups and no fixed-width values. -/
inductive UnknownField
  | int (number : FieldNumber) (value : UInt64)
  | string (number : FieldNumber) (value : { bytes : List UInt8 // bytes.length < 2 ^ 31 })
  deriving DecidableEq

def UnknownField.tag : UnknownField → Nat
  | .int n _ => makeTag n.1 typeVarint
  | .string n _ => makeTag n.1 typeLengthDelimited

def UnknownField.body : UnknownField → List UInt8
  | .int _ v => varint 9 v.toNat
  | .string _ v => varint 4 v.1.length ++ v.1

theorem take_fits {n : Nat} {bytes : List UInt8} (h : n < 2 ^ 31) :
    (bytes.take n).length < 2 ^ 31 := Nat.lt_of_le_of_lt (List.length_take_le n bytes) h

/-- `SkipField`. -/
def skipField (tag : Nat) (bytes : List UInt8) :
    Except (Option UnknownField) (UnknownField × List UInt8) :=
  if hnumber : 0 < tag / 8 ∧ tag / 8 < 2 ^ 29 then
    if tag % 8 = typeVarint then
      match readVarint 9 bytes with
      | none => .error none
      | some (v, rest) => .ok (.int ⟨tag / 8, hnumber⟩ (UInt64.ofNat v), rest)
    else if tag % 8 = typeLengthDelimited then
      match readVarint32 bytes with
      | none => .error none
      | some (n, rest) =>
        if h : n < 2 ^ 31 ∧ n ≤ rest.length then
          .ok (.string ⟨tag / 8, hnumber⟩ ⟨rest.take n, take_fits h.1⟩, rest.drop n)
        else .error none
    else .error none
  else .error none

def smallFormat : WireFormat UnknownField where
  tag := UnknownField.tag
  body := UnknownField.body
  skip _ := skipField
  torn _ _ := []
  depth := 64

theorem smallFormat_fits (k : Nat) (f : UnknownField) : smallFormat.Fits k f := by
  intro r
  show skipField f.tag (f.body ++ r) = _
  unfold skipField
  cases f with
  | int n v =>
    have hdiv : (UnknownField.int n v).tag / 8 = n.1 := by
      simp only [UnknownField.tag, makeTag, typeVarint]
      omega
    have hmod : (UnknownField.int n v).tag % 8 = typeVarint := by
      simp only [UnknownField.tag, makeTag, typeVarint]
      omega
    have hv : v.toNat < 128 ^ (9 + 1) := Nat.lt_of_lt_of_le v.toNat_lt (by decide)
    simp only [hdiv, hmod, n.2, and_self, dif_pos, if_true, UnknownField.body,
      readVarint_varint hv (Nat.le_refl 9) r, UInt64.ofNat_toNat]
    rfl
  | string n v =>
    have hdiv : (UnknownField.string n v).tag / 8 = n.1 := by
      simp only [UnknownField.tag, makeTag, typeLengthDelimited]
      omega
    have hmod : (UnknownField.string n v).tag % 8 = typeLengthDelimited := by
      simp only [UnknownField.tag, makeTag, typeLengthDelimited]
      omega
    have hne : typeLengthDelimited ≠ typeVarint := by decide
    have hfits : v.1.length < 2 ^ 31 ∧ v.1.length ≤ (v.1 ++ r).length := by
      refine ⟨v.2, ?_⟩
      rw [List.length_append]
      omega
    simp only [hdiv, hmod, n.2, and_self, dif_pos, if_neg hne, if_true, UnknownField.body,
      List.append_assoc, readVarint32_varint (show v.1.length < 2 ^ 32 by omega), hfits,
      List.take_left, List.drop_left]
    rfl

/-- A field that is skipped is a number or a string. -/
theorem skipField_eq_ok {t : Nat} {bs r : List UInt8} {f : UnknownField}
    (h : skipField t bs = .ok (f, r)) :
    (∃ number v, f = .int number (UInt64.ofNat v) ∧ t = makeTag number.1 typeVarint ∧
      readVarint 9 bs = some (v, r)) ∨
    ∃ number bytes rest, f = .string number bytes ∧ t = makeTag number.1 typeLengthDelimited ∧
      readVarint32 bs = some (bytes.1.length, rest) ∧ rest = bytes.1 ++ r := by
  unfold skipField at h
  split at h
  · next hnumber =>
    split at h
    · next ht =>
      split at h
      · cases h
      · next v rest hread =>
        cases h
        have htag : t = makeTag (t / 8) typeVarint := by
          rw [makeTag, ← ht]
          omega
        exact .inl ⟨⟨t / 8, hnumber⟩, v, rfl, htag, hread⟩
    · split at h
      · next ht =>
        split at h
        · cases h
        · next n rest hread =>
          split at h
          · next hn =>
            cases h
            have htag : t = makeTag (t / 8) typeLengthDelimited := by
              rw [makeTag, ← ht]
              omega
            refine .inr ⟨⟨t / 8, hnumber⟩, ⟨rest.take n, take_fits hn.1⟩, rest, rfl, htag, ?_,
              (List.take_append_drop n rest).symm⟩
            rw [List.length_take, Nat.min_eq_left hn.2]
            exact hread
          · cases h
      · cases h
  · cases h

theorem tag_skipField {t : Nat} {bs r : List UInt8} {f : UnknownField}
    (h : skipField t bs = .ok (f, r)) : f.tag = t := by
  rcases skipField_eq_ok h with ⟨number, v, rfl, rfl, -⟩ | ⟨number, bytes, rest, rfl, rfl, -⟩
  · rfl
  · rfl

theorem skipField_shorter {t : Nat} {bs r : List UInt8} {f : UnknownField}
    (h : skipField t bs = .ok (f, r)) : r.length ≤ bs.length := by
  rcases skipField_eq_ok h with ⟨number, v, -, -, hread⟩ | ⟨number, bytes, rest, -, -, hread, rfl⟩
  · exact Nat.le_of_lt (readVarint_shorter hread)
  · have := readVarint32_shorter hread
    rw [List.length_append] at this
    omega

theorem skipField_ne_left {t : Nat} {bs : List UInt8} {f : UnknownField} :
    skipField t bs ≠ .error (some f) := by
  intro h
  unfold skipField at h
  split at h
  · split at h
    · split at h <;> cases h
    · split at h
      · split at h
        · cases h
        · split at h <;> cases h
      · cases h
  · cases h

theorem smallFormat_sound : smallFormat.Sound where
  skip_fits k t bs f r h := ⟨tag_skipField h, smallFormat_fits k f⟩
  left_fits k t bs f h := absurd h skipField_ne_left
  skip_mono j k t bs p _ h := h
  skip_shorter k t bs f r h := skipField_shorter h
  tag_fits f := by
    cases f with
    | int n v =>
      have := n.2
      simp only [smallFormat, UnknownField.tag, makeTag, typeVarint]
      omega
    | string n v =>
      have := n.2
      simp only [smallFormat, UnknownField.tag, makeTag, typeLengthDelimited]
      omega
  tag_pos f := by
    cases f with
    | int n v =>
      have := n.2
      simp only [smallFormat, UnknownField.tag, makeTag, typeVarint]
      omega
    | string n v =>
      have := n.2
      simp only [smallFormat, UnknownField.tag, makeTag, typeLengthDelimited]
      omega
  tag_type f := by
    cases f with
    | int n v =>
      simp only [smallFormat, UnknownField.tag, makeTag, typeVarint, typeEndGroup]
      omega
    | string n v =>
      simp only [smallFormat, UnknownField.tag, makeTag, typeLengthDelimited, typeEndGroup]
      omega

end Wire
