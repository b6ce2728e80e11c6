import MiniPL.Proofs.Grammar.Nesting
import MiniPL.Proofs.Grammar.Takes

/-!
# The language of a reading

The *language* of a reading says which tokens it takes for which result. A reading reads its
language (`Reading.Reads`) if, on every stream, it either takes tokens of the language with
their result, or stops at the first item that no tokens of the language go on with: what it
has taken until then can still be completed. It stops earlier only where more than a number
of parentheses are open.

That a reading reads a language is proved along its definition (`Reads.bind`); what is read
first must leave no parentheses closed that were open before (`Reading.Steady`). After a single
token, the language is that of the tokens that go on with it (`Reads.keyword_bind`, and so on).
-/

namespace MiniPL

/-- The kind of the item that a fault tells of, if it does. -/
def SyntaxFault.found? : SyntaxFault → Option Kind
  | unexpected found _ => some found
  | illegalStart found => some found
  | unclosedBlock => some .eof
  | missingSemicolon => none
  | nestedTooDeeply => none

namespace Reading

variable {α β : Type}

/-- The outcome of a reading of the language `L` that has taken the tokens `w` when `next`
    is the next item: a result for these tokens, or a fault at `next` where they cannot go
    on like this, or that `depth` more parentheses are open than before. -/
inductive Fits (L : α → List Token → Prop) (depth : Nat) (w : List Token) (next : Item) :
    Except (Located SyntaxFault) α → Prop
  | ok {a : α} (h : L a w) : Fits L depth w next (.ok a)
  | fault {f : SyntaxFault} (hf : f.found? = some next.kind) (h : ∃ a u, L a (w ++ u)) :
    Fits L depth w next (.error ⟨f, next.pos⟩)
  | deep (h : ∀ n, n + depth ≤ w.foldl Token.parens n) :
    Fits L depth w next (.error ⟨.nestedTooDeeply, next.pos⟩)

/-- The reading `x` comes out as one of the language `L` does, on the tokens `ts`. -/
def ReadsAt (x : Reading α) (L : α → List Token → Prop) (depth : Nat) (ts : List Token)
    (p : Pos) : Prop :=
  ∃ w rest o, ts = w ++ rest ∧ x.Takes w (Item.first rest (.eof p)) o ∧
    (∀ t ∈ w, t.lexeme ≠ .symbol .semicolon) ∧ Fits L depth w (Item.first rest (.eof p)) o

/-- The reading `x` reads the language `L`, which is not empty, unless `depth` parentheses
    are open at a time. -/
structure Reads (x : Reading α) (L : α → List Token → Prop) (depth : Nat) : Prop where
  exists_word : ∃ a w, L a w
  readsAt : ∀ ts p, x.ReadsAt L depth ts p

/-- No tokens of the language `L` close more parentheses than they open. -/
def Steady (L : α → List Token → Prop) : Prop :=
  ∀ a w, L a w → ∀ n, n ≤ w.foldl Token.parens n

variable {x : Reading α} {f : α → Reading β} {L : β → List Token → Prop} {depth : Nat}
  {ts : List Token} {p : Pos}

/-! ## At one place -/

theorem readsAt_pure {b : β} (h : L b []) : (pure b : Reading β).ReadsAt L depth ts p :=
  ⟨[], ts, .ok b, rfl, takes_pure b _, nofun, .ok h⟩

/-- A reading may stop at the next item, if it tells of that item. -/
theorem readsAt_refuse {fault : SyntaxFault} {next : Item} (hn : Item.first ts (.eof p) = next)
    (hf : fault.found? = some next.kind) (h : ∃ b u, L b u) :
    (refuse fault next.pos : Reading β).ReadsAt L depth ts p := by
  subst hn
  exact ⟨[], ts, _, rfl, takes_refuse _ _ _, nofun, .fault hf h⟩

theorem ReadsAt.bind_nil {a : α} (hx : x.Takes [] (Item.first ts (.eof p)) (.ok a))
    (hf : (f a).ReadsAt L depth ts p) : (x >>= f).ReadsAt L depth ts p := by
  obtain ⟨w, rest, o, rfl, ht, hw, ho⟩ := hf
  rw [Item.first_append] at hx
  exact ⟨w, rest, o, rfl, hx.bind_nil ht, hw, ho⟩

theorem ReadsAt.peek_bind {f : Item → Reading β}
    (hf : (f (Item.first ts (.eof p))).ReadsAt L depth ts p) :
    (peek >>= f).ReadsAt L depth ts p :=
  .bind_nil (takes_peek _) hf

/-- Taking one token, which may open a parenthesis. -/
theorem ReadsAt.advance_bind {f : Unit → Reading β} {t : Token} {depth' : Nat}
    (ht : t.lexeme ≠ .symbol .semicolon) (hd : ∀ n, n + depth' ≤ t.parens n + depth)
    (hf : (f ()).ReadsAt (fun b u => L b (t :: u)) depth ts p) :
    (advance >>= f).ReadsAt L depth' (t :: ts) p := by
  obtain ⟨w, rest, o, rfl, hr, hw, ho⟩ := hf
  refine ⟨t :: w, rest, o, rfl, .advance_bind t hr, ?_, ?_⟩
  · intro u hu
    rcases List.mem_cons.1 hu with rfl | hu
    · exact ht
    · exact hw u hu
  · cases ho with
    | ok h => exact .ok h
    | fault hf h => exact .fault hf h
    | deep h => exact .deep fun n => Nat.le_trans (hd n) (h (t.parens n))

/-! ## On all streams -/

/-- One reading after the other. -/
theorem Reads.bind {L₁ : α → List Token → Prop} (hx : x.Reads L₁ depth) (hs : Steady L₁)
    (hf : ∀ a w, L₁ a w → (f a).Reads (fun b u => L b (w ++ u)) depth) :
    (x >>= f).Reads L depth where
  exists_word := by
    obtain ⟨a, w, ha⟩ := hx.exists_word
    obtain ⟨b, u, hb⟩ := (hf a w ha).exists_word
    exact ⟨b, w ++ u, hb⟩
  readsAt ts p := by
    obtain ⟨w, rest, o, rfl, ht, hw, ho⟩ := hx.readsAt ts p
    cases ho with
    | @ok a ha =>
      -- The first reading comes out with a result, so the second one decides.
      obtain ⟨u, rest, o, rfl, hu, hnu, ho⟩ := (hf a w ha).readsAt rest p
      rw [Item.first_append] at ht
      refine ⟨w ++ u, rest, o, (List.append_assoc ..).symm, ht.bind hu, ?_, ?_⟩
      · intro t h
        rcases List.mem_append.1 h with h | h
        · exact hw t h
        · exact hnu t h
      · cases ho with
        | ok h => exact .ok h
        | fault hf h =>
          obtain ⟨b, v, h⟩ := h
          exact .fault hf ⟨b, v, by rwa [List.append_assoc]⟩
        | deep h =>
          -- The parentheses before `u` are open as well, as `w` closes none of them.
          refine .deep fun n => ?_
          rw [List.foldl_append]
          exact Nat.le_trans (Nat.add_le_add_right (hs a w ha n) depth) (h _)
    | fault hf' h =>
      -- What completes the first reading is completed by any word of the second one.
      obtain ⟨a, u, ha⟩ := h
      obtain ⟨b, v, hb⟩ := (hf a _ ha).exists_word
      exact ⟨w, rest, _, rfl, ht.bind_error, hw,
        .fault hf' ⟨b, u ++ v, by rwa [← List.append_assoc]⟩⟩
    | deep h => exact ⟨w, rest, _, rfl, ht.bind_error, hw, .deep h⟩

/-- A reading of which only the result is changed. -/
theorem Reads.map {L₁ : α → List Token → Prop} {g : α → β} (hx : x.Reads L₁ depth)
    (hg : ∀ a w, L₁ a w → L (g a) w) : (x >>= fun a => pure (g a)).Reads L depth where
  exists_word := by
    obtain ⟨a, w, ha⟩ := hx.exists_word
    exact ⟨g a, w, hg a w ha⟩
  readsAt ts p := by
    obtain ⟨w, rest, o, rfl, ht, hw, ho⟩ := hx.readsAt ts p
    cases ho with
    | ok ha => exact ⟨w, rest, _, rfl, ht.map, hw, .ok (hg _ w ha)⟩
    | fault hf h =>
      obtain ⟨a, u, ha⟩ := h
      exact ⟨w, rest, _, rfl, ht.bind_error, hw, .fault hf ⟨g a, u, hg a _ ha⟩⟩
    | deep h => exact ⟨w, rest, _, rfl, ht.bind_error, hw, .deep h⟩

/-! ## Single tokens -/

/-- A token of the given kind is read by `expect`, and no other one. -/
theorem reads_expect {l : Lexeme} {kind : Kind} (hl : l.kind = kind)
    (hu : ∀ l' : Lexeme, l'.kind = kind → l' = l) (hk : kind ≠ .symbol .semicolon) :
    (expect kind).Reads (fun q w => w = [⟨l, q⟩]) depth where
  exists_word := ⟨.start, _, rfl⟩
  readsAt ts p := by
    have hv : ∃ (q : Pos) (u : List Token), u = [⟨l, q⟩] := ⟨.start, _, rfl⟩
    by_cases h : (Item.first ts (.eof p)).kind = kind
    · cases ts with
      | nil =>
        -- No token is of the kind of the end of the program.
        subst hl
        cases l <;> cases h
      | cons t rest =>
        obtain ⟨l', q⟩ := t
        obtain rfl := hu l' h
        refine ⟨[⟨l', q⟩], rest, .ok q, rfl, takes_expect hl _, ?_, .ok rfl⟩
        intro t ht hs
        rw [List.mem_singleton.1 ht] at hs
        rw [show l' = .symbol .semicolon from hs] at hl
        exact hk hl.symm
    · exact ⟨[], ts, _, rfl, takes_expect_error h, nofun, .fault rfl hv⟩

theorem reads_symbol (s : Symbol) (hs : s ≠ .semicolon) :
    (expect (.symbol s)).Reads (fun q w => w = [s.token q]) depth := by
  refine reads_expect rfl ?_ (by simpa using hs)
  intro l hl
  cases l <;> cases hl
  rfl

theorem reads_keyword (k : Keyword) :
    (expect (.keyword k)).Reads (fun q w => w = [k.token q]) depth := by
  refine reads_expect rfl ?_ nofun
  intro l hl
  cases l <;> cases hl
  rfl

theorem reads_name : expectName.Reads (fun a w => w = [.ofName a.2 a.1]) depth where
  exists_word := ⟨(.start, ""), _, rfl⟩
  readsAt ts p := by
    have hv : ∃ (a : Pos × String) (u : List Token), u = [.ofName a.2 a.1] :=
      ⟨(.start, ""), _, rfl⟩
    refine .peek_bind ?_
    rcases ts with _ | ⟨⟨l, q⟩, rest⟩
    · exact readsAt_refuse rfl rfl hv
    · cases l with
      | name x => exact .advance_bind nofun (fun _ => Nat.le_refl _) (readsAt_pure rfl)
      | _ => exact readsAt_refuse rfl rfl hv

theorem reads_type : expectType.Reads (fun ty w => ∃ q, w = [ty.keyword.token q]) depth where
  exists_word := ⟨.int, _, .start, rfl⟩
  readsAt ts p := by
    have hv : ∃ (ty : Ty) (u : List Token), ∃ q, u = [ty.keyword.token q] :=
      ⟨.int, _, .start, rfl⟩
    refine .peek_bind ?_
    rcases ts with _ | ⟨⟨l, q⟩, rest⟩
    · exact readsAt_refuse rfl rfl hv
    · cases l with
      | keyword k =>
        cases k with
        | intK | stringK | boolK =>
          exact .advance_bind nofun (fun _ => Nat.le_refl _) (readsAt_pure ⟨q, rfl⟩)
        | _ => exact readsAt_refuse rfl rfl hv
      | _ => exact readsAt_refuse rfl rfl hv

theorem steady_symbol (s : Symbol) (hc : s ≠ .closeParen) (hs : s ≠ .semicolon) :
    Steady fun (q : Pos) w => w = [s.token q] := by
  rintro q w rfl n
  cases s <;> simp_all [Token.parens]

theorem steady_keyword (k : Keyword) : Steady fun (q : Pos) w => w = [k.token q] := by
  rintro q w rfl n
  exact Nat.le_refl n

theorem steady_name : Steady fun (a : Pos × String) w => w = [.ofName a.2 a.1] := by
  rintro a w rfl n
  exact Nat.le_refl n

theorem steady_type : Steady fun (ty : Ty) w => ∃ q, w = [ty.keyword.token q] := by
  rintro ty w ⟨q, rfl⟩ n
  exact Nat.le_refl n

theorem Reads.symbol_bind {s : Symbol} {f : Pos → Reading β} (hc : s ≠ .closeParen)
    (hs : s ≠ .semicolon) (hf : ∀ q, (f q).Reads (fun b u => L b (s.token q :: u)) depth) :
    (expect (.symbol s) >>= f).Reads L depth := by
  refine (reads_symbol s hs).bind (steady_symbol s hc hs) ?_
  rintro q w rfl
  exact hf q

theorem Reads.keyword_bind {k : Keyword} {f : Pos → Reading β}
    (hf : ∀ q, (f q).Reads (fun b u => L b (k.token q :: u)) depth) :
    (expect (.keyword k) >>= f).Reads L depth := by
  refine (reads_keyword k).bind (steady_keyword k) ?_
  rintro q w rfl
  exact hf q

theorem Reads.name_bind {f : Pos × String → Reading β}
    (hf : ∀ q x, (f (q, x)).Reads (fun b u => L b (.ofName x q :: u)) depth) :
    (expectName >>= f).Reads L depth := by
  refine reads_name.bind steady_name ?_
  rintro ⟨q, x⟩ w rfl
  exact hf q x

theorem Reads.type_bind {f : Ty → Reading β}
    (hf : ∀ ty q, (f ty).Reads (fun b u => L b (ty.keyword.token q :: u)) depth) :
    (expectType >>= f).Reads L depth := by
  refine reads_type.bind steady_type ?_
  rintro ty w ⟨q, rfl⟩
  exact hf ty q

end Reading

end MiniPL
