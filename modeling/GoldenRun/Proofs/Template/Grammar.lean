import GoldenRun.Proofs.Template.Scan
import GoldenRun.Template.Grammar
import Mathlib.Data.List.Forall2

/-!
# The tree of texts and references

* `Leads`: reading goes on from one point to a later one
* `leads_text`, `leads_reference`: what a text and a reference add to the statements
* `read_source`: the statements of a pattern, or its fault
-/

namespace GoldenRun.Template

open Builder GoldenRun.Text

variable {k m n : Nat} {r r' r'' : Reader} {b b' b'' : Builder} {p : Piece} {t u v : Token}
  {mode next : Mode} {kind : TokenKind} {body : List Statement} {name : String}
  {text written lead trail rest : List Char}

/-! ## Going on -/

/-- What a builder comes to with some more tokens. -/
def Builder.resume (b : Builder) (tokens : Tokens) : Except Fault Program := do
  let b ← tokens.list.foldlM step b
  match b.result, tokens.fault with
  | some p, _ => return p
  | none, some fault => throw fault
  | none, none => throw .tooDeep

/-- In so many steps, reading goes on from one reader and builder to others. -/
def Leads (k : Nat) (r : Reader) (b : Builder) (r' : Reader) (b' : Builder) : Prop :=
  ∀ fuel, b.resume (scanFrom (fuel + k) r) = b'.resume (scanFrom fuel r')

namespace Leads

theorem refl (r : Reader) (b : Builder) : Leads 0 r b r b := fun _ => rfl

theorem trans (h : Leads k r b r' b') (h' : Leads m r' b' r'' b'') :
    Leads (m + k) r b r'' b'' := by
  intro fuel
  rw [← Nat.add_assoc, h, h']

end Leads

/-- A piece without a token changes the reader alone. -/
theorem leads_skip (hmode : r.mode = mode) (hrest : r.rest = text ++ rest)
    (hpiece : piece mode (text ++ rest) = some ⟨text, none, next, false⟩) :
    ∃ r', r'.mode = next ∧ r'.rest = rest ∧ ∀ b, Leads 1 r b r' b := by
  refine ⟨r.advance ⟨text, none, next, false⟩, rfl, by simp [Reader.advance, hrest], ?_⟩
  intro b fuel
  rw [scanFrom, hmode, hrest, hpiece]
  rfl

/-- The token of a piece goes to the builder. -/
theorem resume_token (hpiece : piece r.mode r.rest = some p)
    (htoken : p.token = some (kind, written)) (hlast : kind.isLast = false) :
    ∃ t, t.kind = kind ∧ t.text = String.ofList written ∧ ∀ b fuel,
      b.resume (scanFrom (fuel + 1) r) =
        step b t >>= fun b' => b'.resume (scanFrom fuel (r.advance p)) := by
  obtain ⟨t, ht, hkind, htext⟩ : ∃ t, r.token? p = some t ∧ t.kind = kind ∧
      t.text = String.ofList written := ⟨_, by rw [Reader.token?, htoken]; rfl, rfl, rfl⟩
  refine ⟨t, hkind, htext, fun b fuel => ?_⟩
  rw [scanFrom, hpiece]
  simp only [ht, hkind, hlast]
  show Builder.resume b ⟨t :: (scanFrom fuel (r.advance p)).list, _⟩ = _
  rw [Builder.resume, List.foldlM_cons, bind_assoc]
  rfl

theorem leads_token (hmode : r.mode = mode) (hrest : r.rest = text ++ rest)
    (hpiece : piece mode (text ++ rest) = some ⟨text, some (kind, written), next, false⟩)
    (hlast : kind.isLast = false) :
    ∃ t r', t.kind = kind ∧ t.text = String.ofList written ∧ r'.mode = next ∧ r'.rest = rest ∧
      ∀ b b', step b t = .ok b' → Leads 1 r b r' b' := by
  rw [← hmode, ← hrest] at hpiece
  obtain ⟨t, hkind, htext, hresume⟩ := resume_token hpiece rfl hlast
  refine ⟨t, r.advance ⟨text, some (kind, written), next, false⟩, hkind, htext, rfl,
    by simp [Reader.advance, hrest], ?_⟩
  intro b b' hstep fuel
  rw [hresume, hstep]
  rfl

/-! ## The steps of a builder -/

/-- A builder between two statements of a template without blocks. -/
def Builder.between (body : List Statement) (lineEnds : Nat) : Builder := { body, lineEnds }

/-- The builder behind the opener of a tag. -/
def Builder.opened (body : List Statement) (t : Token) : Builder :=
  { body, lineEnds := t.lineEnds, tag := some { opener := t, level := { place := t.place } } }

/-- The builder behind the name in a tag. -/
def Builder.named (body : List Statement) (t u : Token) : Builder :=
  { body
    lineEnds := u.lineEnds
    tag := some
      { opener := t, level := { place := t.place }
        pending := .path false false [⟨"", u.text⟩] u.place } }

/-- A text, as a statement. -/
def textStatement (text : List Char) : Statement := .content ⟨text, text, false, false⟩

/-- A reference, as a statement. -/
def nameStatement (name : String) (place : Place) : Statement :=
  .mustache ⟨.path ⟨false, 0, [name], name, place⟩, [], []⟩ {}

theorem step_content (ht : t.kind = .content) :
    step (between body n) t = .ok (between (textStatement t.text.toList :: body) t.lineEnds) := by
  cases t
  cases ht
  rfl

theorem step_opener (ht : t.kind = .opener) : step (between body n) t = .ok (opened body t) := by
  cases t
  cases ht
  rfl

theorem step_id (ht : t.kind = .opener) (hu : u.kind = .id) :
    step (opened body t) u = .ok (named body t u) := by
  cases t
  cases u
  cases ht
  cases hu
  rfl

/-- An identifier is a path of one name. -/
theorem makePath_identifier (hname : IsIdentifier name) (place : Place) :
    makePath false [⟨"", name⟩] place = .ok ⟨false, 0, [name], name, place⟩ := by
  have hbracket : unbracket name = name := by
    unfold unbracket
    split
    · next rest hrest =>
      have hmark := (hname.plain '[' (by rw [hrest]; exact List.mem_cons_self)).2
      exact absurd (by decide) hmark
    · rfl
  have hthis : name ≠ "this" := by
    rintro rfl
    exact hname.not_reserved (by decide)
  have hdot : ∀ s : String, s.toList.head? = some '.' → name ≠ s := by
    rintro s hs rfl
    obtain ⟨rest, hrest⟩ := List.head?_eq_some_iff.mp hs
    exact (hname.plain '.' (by rw [hrest]; exact List.mem_cons_self)).2 (by decide)
  simp [makePath, makePath.go, hbracket, hthis, hdot "." rfl, hdot ".." rfl]

/-- A tag without tildes and asterisk is a reference. -/
theorem finishTag_opener {b : Builder} {tag : Tag} (ht : tag.opener.kind = .opener)
    (htext : tag.opener.text = "\x7b\x7b") (hvtext : v.text = "\x7d\x7d") :
    b.finishTag tag v =
      { b with tag := none, body := .mustache tag.level.call {} :: b.body } := by
  simp [Builder.finishTag, ht, Token.isDecorator, stripOf, htext, hvtext]

/-- The token behind a path settles it. -/
theorem settle_path {tag : Tag} {path : NamePath} {place : Place}
    (hpending : tag.pending = .path false false [⟨"", name⟩] place)
    (hpath : makePath false [⟨"", name⟩] place = .ok path) (hslot : tag.level.slot = .head)
    (hv : v.kind = .close) :
    settle b tag v =
      .ok { tag with level := tag.level.accept (.path path), pending := .nothing } := by
  have haccept : (tag.level.accept (.path path)).slot ≠ .name := by
    simp [Level.accept, hslot]
  simp only [settle, hpending, List.reverse_singleton, hpath, hv]
  show (if _ ∧ _ then _ else _ : Except Fault Tag) = _
  rw [if_neg fun h => haccept h.1]
  rfl

/-- A tag is closed where an argument may stand. -/
theorem slotStep_close {tag : Tag} (hslot : tag.level.slot = .argument)
    (ht : tag.opener.kind = .opener) (houter : tag.outer = []) (hv : v.kind = .close) :
    slotStep b tag v = .ok (b.finishTag tag v) := by
  simp only [slotStep, hslot, ht, hv, houter]
  rfl

/-- A tag that names a path is closed. -/
theorem tagStep_close {tag : Tag} {path : NamePath} {place : Place}
    (hpending : tag.pending = .path false false [⟨"", name⟩] place)
    (hpath : makePath false [⟨"", name⟩] place = .ok path) (hslot : tag.level.slot = .head)
    (ht : tag.opener.kind = .opener) (houter : tag.outer = []) (hv : v.kind = .close) :
    tagStep b tag v = .ok (b.finishTag
      { tag with level := tag.level.accept (.path path), pending := .nothing } v) := by
  have hsep : v.kind ≠ .sep := by simp [hv]
  have hequals : v.kind ≠ .equals := by simp [hv]
  simp only [tagStep, hpending, hsep, hequals, false_and, if_false]
  rw [settle_path hpending hpath hslot hv]
  exact slotStep_close (by simp [Level.accept, hslot]) ht houter hv

theorem step_close (body : List Statement) (hname : IsIdentifier u.text) (ht : t.kind = .opener)
    (htext : t.text = "\x7b\x7b") (hv : v.kind = .close) (hvtext : v.text = "\x7d\x7d") :
    step (named body t u) v =
      .ok (between (nameStatement u.text u.place :: body) v.lineEnds) := by
  simp only [step, named]
  rw [tagStep_close rfl (makePath_identifier hname u.place) rfl ht rfl hv,
    finishTag_opener ht htext hvtext]
  rfl

theorem step_eof (body : List Statement) (n : Nat) (ht : t.kind = .eof) :
    ∃ b', step (between body n) t = .ok b' ∧ b'.result = some (.mk body.reverse none false) := by
  cases t
  cases ht
  exact ⟨_, rfl, rfl⟩

/-- Outside of a block there is no further branch. -/
theorem step_else (body : List Statement) (n : Nat)
    (ht : t.kind = .inverse ∨ t.kind = .openInverseChain) :
    ∃ fault, step (between body n) t = .error fault := by
  cases t
  rcases ht with ht | ht
  · cases ht
    exact ⟨_, rfl⟩
  · cases ht
    exact ⟨_, rfl⟩

/-! ## Texts and references -/

/-- In so many steps, reading ends with a result. -/
def Ends (k : Nat) (r : Reader) (b : Builder) (result : Except Fault Program) : Prop :=
  ∀ fuel, b.resume (scanFrom (fuel + k) r) = result

theorem Leads.ends {result : Except Fault Program} (h : Leads k r b r' b')
    (h' : Ends m r' b' result) : Ends (m + k) r b result := by
  intro fuel
  rw [← Nat.add_assoc, h, h']

/-- A part stands in the tree as a statement; only the place of a name is open. -/
def Part.IsRead : Part → Statement → Prop
  | .text text, s => s = textStatement text
  | .name name, s => ∃ place, s = nameStatement name place

/-- A text before a tag becomes a statement unless it is empty. -/
theorem leads_text (body : List Statement) (n : Nat) (hmode : r.mode = .text)
    (hrest : r.rest = text ++ '\x7b' :: '\x7b' :: rest)
    (hplain : '\x00' ∉ text ∧ ¬['\x7b', '\x7b'] <:+: text)
    (hends : text.getLast? ≠ some '\x7b' ∧ text.getLast? ≠ some '\\') :
    ∃ r' n' more, Leads 1 r (between body n) r' (between (more.reverse ++ body) n') ∧
      r'.mode = .tag ∧ r'.rest = '\x7b' :: '\x7b' :: rest ∧
      List.Forall₂ Part.IsRead (Pattern.textParts text) more := by
  have hpiece := textPiece_append rest hplain.1 hplain.2 hends.1 hends.2
  by_cases htext : text = []
  · rw [if_pos htext] at hpiece
    obtain ⟨r', hmode', hrest', hleads⟩ := leads_skip hmode hrest hpiece
    refine ⟨r', n, [], hleads _, hmode', hrest', ?_⟩
    rw [Pattern.textParts, if_pos htext]
    exact .nil
  · rw [if_neg htext] at hpiece
    obtain ⟨t, r', hkind, hwritten, hmode', hrest', hleads⟩ :=
      leads_token hmode hrest hpiece rfl
    refine ⟨r', t.lineEnds, [textStatement t.text.toList], hleads _ _ (step_content hkind), hmode',
      hrest', ?_⟩
    rw [Pattern.textParts, if_neg htext, hwritten, String.toList_ofList]
    exact .cons rfl .nil

/-- Blanks in a tag are passed over. -/
theorem leads_blank (b : Builder) {d : Char} (hmode : r.mode = .tag)
    (hrest : r.rest = lead ++ d :: rest) (hlead : allBlank lead = true) (hd : isBlank d = false) :
    ∃ k r', k ≤ 1 ∧ Leads k r b r' b ∧ r'.mode = .tag ∧ r'.rest = d :: rest := by
  by_cases hne : lead = []
  · subst hne
    exact ⟨0, r, Nat.zero_le 1, .refl r b, hmode, hrest⟩
  · obtain ⟨r', hmode', hrest', hleads⟩ := leads_skip hmode hrest (tagPiece_blank hne hlead hd)
    exact ⟨1, r', Nat.le_refl 1, hleads b, hmode', hrest'⟩

/-- A reference becomes a statement. -/
theorem leads_reference {x : Reference} (hmode : r.mode = .tag) (hrest : r.rest = x.chars ++ rest)
    (hname : IsIdentifier x.name) (helse : isElse x.name.toList = false)
    (hblanks : allBlank x.lead = true ∧ allBlank x.trail = true)
    (hnext : rest.head? ≠ some '\x7d') :
    ∃ k r' n' place, k ≤ 5 ∧
      Leads k r (between body n) r' (between (nameStatement x.name place :: body) n') ∧
      r'.mode = .text ∧ r'.rest = rest := by
  obtain ⟨hlead, htrail⟩ := hblanks
  obtain ⟨c, cs, hcons⟩ := List.exists_cons_of_ne_nil hname.ne_nil
  have hc : isBlank c = false := (hname.plain c (hcons ▸ List.mem_cons_self)).1
  have hchars : r.rest = ['\x7b', '\x7b'] ++
      (x.lead ++ (x.name.toList ++ (x.trail ++ '\x7d' :: '\x7d' :: rest))) := by
    rw [hrest]
    simp [Reference.chars]
  -- The opener, blanks, the name, blanks, and the closer.
  obtain ⟨t, r₁, ht, httext, hmode₁, hrest₁, hleads₁⟩ :=
    leads_token hmode hchars (tagPiece_braces hname hlead htrail helse) rfl
  rw [hcons] at hrest₁
  obtain ⟨k₂, r₂, hk₂, hleads₂, hmode₂, hrest₂⟩ :=
    leads_blank (opened body t) hmode₁ hrest₁ hlead hc
  have hrest₂' : r₂.rest = x.name.toList ++ (x.trail ++ '\x7d' :: '\x7d' :: rest) := by
    rw [hrest₂, hcons]
    rfl
  obtain ⟨u, r₃, hu, hutext, hmode₃, hrest₃, hleads₃⟩ :=
    leads_token hmode₂ hrest₂' (tagPiece_name hname htrail) rfl
  obtain ⟨k₄, r₄, hk₄, hleads₄, hmode₄, hrest₄⟩ :=
    leads_blank (named body t u) hmode₃ hrest₃ htrail (by decide)
  have hrest₄' : r₄.rest = ['\x7d', '\x7d'] ++ rest := hrest₄
  obtain ⟨v, r₅, hv, hvtext, hmode₅, hrest₅, hleads₅⟩ :=
    leads_token hmode₄ hrest₄' (tagPiece_close hnext) rfl
  rw [String.ofList_toList] at hutext
  have hclose := step_close body (hutext ▸ hname) ht httext hv hvtext
  rw [hutext] at hclose
  have hall := (hleads₁ (between body n) _ (step_opener ht)).trans (hleads₂.trans
    ((hleads₃ _ _ (step_id ht hu)).trans (hleads₄.trans (hleads₅ _ _ hclose))))
  exact ⟨_, r₅, v.lineEnds, u.place, by omega, hall, hmode₅, hrest₅⟩

/-- A name that opens a further branch is refused. -/
theorem ends_else {x : Reference} (hmode : r.mode = .tag) (hrest : r.rest = x.chars ++ rest)
    (hname : IsIdentifier x.name) (helse : isElse x.name.toList = true)
    (hblanks : allBlank x.lead = true ∧ allBlank x.trail = true) :
    ∃ fault, Ends 1 r (between body n) (.error fault) := by
  obtain ⟨p, kind, written, hpiece, htoken, hkind⟩ :=
    tagPiece_else ('\x7d' :: rest) hname hblanks.1 hblanks.2 helse
  have hread : piece r.mode r.rest = some p := by
    rw [hmode, hrest, ← hpiece]
    simp [piece, Reference.chars]
  have hlast : kind.isLast = false := by
    rcases hkind with rfl | rfl
    · rfl
    · rfl
  obtain ⟨t, ht, -, hresume⟩ := resume_token hread htoken hlast
  obtain ⟨fault, hstep⟩ := step_else body n (ht ▸ hkind)
  refine ⟨fault, fun fuel => ?_⟩
  rw [hresume, hstep]
  rfl

/-- Behind the last text the reading ends with the statements so far. -/
theorem ends_eof (hmode : r.mode = .text) (hrest : r.rest = []) :
    Ends 1 r (between body n) (.ok (.mk body.reverse none false)) := by
  intro fuel
  obtain ⟨t, ht, htkind⟩ : ∃ t, r.token? ⟨[], some (.eof, []), .text, false⟩ = some t ∧
      t.kind = .eof := ⟨_, rfl, rfl⟩
  obtain ⟨b', hstep, hresult⟩ := step_eof body n htkind
  have hpiece : piece r.mode r.rest = some ⟨[], some (.eof, []), .text, false⟩ := by
    rw [hmode, hrest]
    rfl
  rw [scanFrom, hpiece]
  simp only [ht, htkind]
  show Builder.resume _ ⟨[t], none⟩ = _
  rw [Builder.resume, List.foldlM_cons, hstep]
  show (match b'.result, (none : Option Fault) with
    | some p, _ => _
    | none, some fault => _
    | none, none => _ : Except Fault Program) = _
  rw [hresult]
  rfl

/-- The text at the end becomes a statement unless it is empty. -/
theorem ends_last (body : List Statement) (n : Nat) (hmode : r.mode = .text) (hrest : r.rest = text)
    (hplain : '\x00' ∉ text ∧ ¬['\x7b', '\x7b'] <:+: text) :
    ∃ k more, k ≤ 2 ∧ List.Forall₂ Part.IsRead (Pattern.textParts text) more ∧
      Ends k r (between body n) (.ok (.mk (body.reverse ++ more) none false)) := by
  by_cases htext : text = []
  · rw [Pattern.textParts, if_pos htext]
    refine ⟨1, [], by omega, .nil, ?_⟩
    rw [List.append_nil]
    exact ends_eof hmode (hrest.trans htext)
  · have hpiece : piece .text (text ++ []) = some ⟨text, some (.content, text), .text, false⟩ := by
      rw [List.append_nil]
      exact (textPiece_last hplain.1 hplain.2).trans (congrArg some (if_neg htext))
    rw [← List.append_nil text] at hrest
    obtain ⟨t, r', hkind, hwritten, hmode', hrest', hleads⟩ := leads_token hmode hrest hpiece rfl
    rw [Pattern.textParts, if_neg htext]
    refine ⟨2, [textStatement text], by omega, .cons rfl .nil, ?_⟩
    have hends := (hleads (between body n) _ (step_content hkind)).ends (ends_eof hmode' hrest')
    rw [List.reverse_cons, hwritten, String.toList_ofList] at hends
    exact hends

/-- **Reading a pattern yields its parts one after the other, unless one of its names opens a
further branch.** -/
theorem ends_chars (body : List Statement) (n : Nat) (p : Pattern) (hwell : p.IsWellFormed)
    (hnames : ∀ x ∈ p.names, IsIdentifier x)
    (hmode : r.mode = .text) (hrest : r.rest = p.chars) :
    ∃ k, k ≤ 6 * p.pairs.length + 2 ∧
      ((∀ x ∈ p.names, isElse x.toList = false) ∧
          (∃ more, List.Forall₂ Part.IsRead p.parts more ∧
            Ends k r (between body n) (.ok (.mk (body.reverse ++ more) none false))) ∨
        (∃ x ∈ p.names, isElse x.toList = true) ∧
          ∃ fault, Ends k r (between body n) (.error fault)) := by
  obtain ⟨pairs, last⟩ := p
  -- By induction on the references: behind each of them one stands before a shorter pattern, with
  -- one or two statements more.
  induction pairs generalizing r body n with
  | nil =>
    obtain ⟨k, more, hk, hparts, hends⟩ := ends_last body n hmode hrest
      (hwell.plain last (List.mem_singleton_self last))
    exact ⟨k, hk, .inl ⟨by simp [Pattern.names], more, hparts, hends⟩⟩
  | cons pair pairs ih =>
    obtain ⟨htail, hstarts⟩ := hwell.tail
    rw [Pattern.names_cons, List.forall_mem_cons] at hnames
    have hfirst := hwell.plain pair.1 List.mem_cons_self
    have hends := hwell.ends pair List.mem_cons_self
    have hblanks := hwell.blanks pair List.mem_cons_self
    rw [Pattern.chars_cons] at hrest
    obtain ⟨r₁, n₁, more₁, hleads₁, hmode₁, hrest₁, hparts₁⟩ :=
      leads_text body n hmode hrest hfirst hends
    cases helse : isElse pair.2.name.toList with
    | true =>
      obtain ⟨fault, hfault⟩ := ends_else hmode₁ hrest₁ hnames.1 helse hblanks
      refine ⟨_, ?_, .inr ⟨⟨_, List.mem_cons_self, helse⟩, fault, hleads₁.ends hfault⟩⟩
      simp
    | false =>
      obtain ⟨k₂, r₂, n₂, place, hk₂, hleads₂, hmode₂, hrest₂⟩ :=
        leads_reference hmode₁ hrest₁ hnames.1 helse hblanks (Pattern.head?_chars hstarts)
      obtain ⟨k, hk, hresult⟩ := ih _ _ hmode₂ htail hnames.2 hrest₂
      have hread := hleads₁.trans hleads₂
      refine ⟨k + (k₂ + 1), by simp at hk ⊢; omega, ?_⟩
      rcases hresult with ⟨hnone, more, hparts, hends⟩ | ⟨⟨x, hx, hmark⟩, fault, hfault⟩
      · left
        rw [Pattern.names_cons, List.forall_mem_cons, Pattern.parts_cons]
        refine ⟨⟨helse, hnone⟩, more₁ ++ nameStatement pair.2.name place :: more, ?_, ?_⟩
        · exact List.rel_append hparts₁ (.cons ⟨place, rfl⟩ hparts)
        · have hbody : body.reverse ++ (more₁ ++ nameStatement pair.2.name place :: more) =
              (nameStatement pair.2.name place :: (more₁.reverse ++ body)).reverse ++ more := by
            simp
          rw [hbody]
          exact hread.ends hends
      · exact .inr ⟨⟨x, List.mem_cons_of_mem _ hx, hmark⟩, fault, hread.ends hfault⟩

/-- **The tree of a pattern has its parts as statements.  It is refused exactly if one of its names
opens a further branch.** -/
theorem read_source (p : Pattern) (hwell : p.IsWellFormed)
    (hnames : ∀ x ∈ p.names, IsIdentifier x) :
    (∀ x ∈ p.names, isElse x.toList = false) ∧
        (∃ statements, List.Forall₂ Part.IsRead p.parts statements ∧
          read p.source = .ok (.mk statements none false)) ∨
      (∃ x ∈ p.names, isElse x.toList = true) ∧ ∃ fault, read p.source = .error fault := by
  obtain ⟨k, hk, hresult⟩ := ends_chars [] 0 p (r := { rest := p.source.toList })
    hwell hnames rfl String.toList_ofList
  have hlength := p.length_chars
  have hread : ∀ result, Ends k { rest := p.source.toList } (between [] 0) result →
      read p.source = result := by
    intro result hends
    have hfuel : 3 * p.source.toList.length + 3 = 3 * p.source.toList.length + 3 - k + k := by
      rw [Pattern.source, String.toList_ofList]
      omega
    rw [read, scan, hfuel]
    exact hends _
  rcases hresult with ⟨hnone, more, hparts, hends⟩ | ⟨helse, fault, hfault⟩
  · exact .inl ⟨hnone, more, hparts, hread _ hends⟩
  · exact .inr ⟨helse, fault, hread _ hfault⟩

end GoldenRun.Template
