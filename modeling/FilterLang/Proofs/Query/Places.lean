import FilterLang.Proofs.Query.Stream

/-!
# Places in a text

A place is counted in bytes, from the part of the text that is left there: the less is left, the higher the
place.  Reading never goes back.  A token leaves a part of what was there before it, and so does a fault, even
one in the middle of a string or a list.

`Lexer.readable` lists the tokens that can be read up to the end of the text or up to the first fault.  Their
places increase (`Lexer.pairwise_readable`), so a place tells which of them is meant.
-/

namespace FilterLang

namespace Lexer

/-! ### Bytes -/

lemma byteLength_eq_sum (cs : List Char) : byteLength cs = (cs.map Char.utf8Size).sum := by
  have hfold : ∀ n, cs.foldl (fun n c => n + c.utf8Size) n = n + (cs.map Char.utf8Size).sum := by
    induction cs with
    | nil => simp
    | cons c cs ih =>
      intro n
      rw [List.foldl_cons, ih, List.map_cons, List.sum_cons]
      omega
  rw [byteLength, hfold, Nat.zero_add]

@[simp] lemma byteLength_cons (c : Char) (cs : List Char) :
    byteLength (c :: cs) = c.utf8Size + byteLength cs := by
  simp only [byteLength_eq_sum, List.map_cons, List.sum_cons]

lemma byteLength_append (cs ds : List Char) :
    byteLength (cs ++ ds) = byteLength cs + byteLength ds := by
  simp only [byteLength_eq_sum, List.map_append, List.sum_append]

lemma byteLength_toList (text : String) : byteLength text.toList = text.utf8ByteSize := by
  have hencode : ∀ cs : List Char, cs.utf8Encode.size = byteLength cs := by
    intro cs
    induction cs with
    | nil => rfl
    | cons c cs ih =>
      rw [List.utf8Encode_cons, ByteArray.size_append, List.utf8Encode_singleton,
        List.size_toByteArray, String.length_utf8EncodeChar, byteLength_cons, ih]
  rw [← hencode, ← String.toByteArray_ofList, String.ofList_toList]
  rfl

lemma byteLength_le_of_suffix {cs rest : List Char} (h : rest <:+ cs) :
    byteLength rest ≤ byteLength cs := by
  obtain ⟨front, rfl⟩ := h
  rw [byteLength_append]
  omega

/-- A character takes a byte at least. -/
lemma byteLength_lt_of_suffix {cs rest : List Char} (hcs : cs ≠ []) (h : rest <:+ cs.tail) :
    byteLength rest < byteLength cs := by
  match cs, hcs with
  | c :: cs, _ =>
    have hle := byteLength_le_of_suffix h
    have hpos := c.utf8Size_pos
    rw [List.tail_cons] at hle
    rw [byteLength_cons]
    omega

lemma offset_congr {lexer lexer' : Lexer} (h : lexer'.text = lexer.text) (cs : List Char) :
    lexer'.offset cs = lexer.offset cs := by
  rw [offset, offset, h]

lemma offset_le_offset (lexer : Lexer) {cs rest : List Char} (h : rest <:+ cs) :
    lexer.offset cs ≤ lexer.offset rest :=
  Nat.sub_le_sub_left (byteLength_le_of_suffix h) _

lemma offset_lt_offset {lexer : Lexer} {cs rest : List Char} (hin : cs <:+ lexer.text.toList)
    (hcs : cs ≠ []) (h : rest <:+ cs.tail) : lexer.offset cs < lexer.offset rest := by
  have hlt := byteLength_lt_of_suffix hcs h
  have hle := byteLength_le_of_suffix hin
  rw [byteLength_toList] at hle
  rw [offset, offset]
  omega

end Lexer

/-! ### What a fault leaves -/

namespace LexFault

/-- The fault lies in this text: its place is there, and reading goes on at this place or behind it. -/
structure LiesIn (fault : LexFault) (cs : List Char) : Prop where
  site : fault.site <:+ cs
  rest : fault.rest <:+ fault.site

variable {fault : LexFault} {cs cs' : List Char}

lemma LiesIn.mono (h : fault.LiesIn cs) (hcs : cs <:+ cs') : fault.LiesIn cs' :=
  ⟨h.site.trans hcs, h.rest⟩

lemma LiesIn.rest_suffix (h : fault.LiesIn cs) : fault.rest <:+ cs := h.rest.trans h.site

/-- A fault at the place where reading stops. -/
lemma liesIn_of_suffix {cause : LexCause} (h : cs <:+ cs') : (LexFault.mk cause cs cs).LiesIn cs' :=
  ⟨h, List.suffix_rfl⟩

end LexFault

namespace Lexer

open LexFault (liesIn_of_suffix)

lemma stringBody_fault {quote : Char} {start cs : List Char} {fault : LexFault} (hcs : cs <:+ start)
    (h : stringBody quote start cs = .error fault) : fault.LiesIn start := by
  fun_induction stringBody quote start cs with
  | case1 =>
    obtain rfl := Except.error.inj h
    exact ⟨List.suffix_rfl, hcs⟩
  | case2 => cases h
  | case3 =>
    obtain rfl := Except.error.inj h
    exact ⟨List.suffix_rfl, List.nil_suffix⟩
  | case4 =>
    obtain rfl := Except.error.inj h
    exact liesIn_of_suffix ((List.suffix_cons _ _).trans hcs)
  | case5 => cases h
  | case6 _ _ _ _ fault' hbody _ ih =>
    obtain rfl := Except.error.inj h
    exact ih (((List.suffix_cons _ _).trans (List.suffix_cons _ _)).trans hcs) hbody
  | case7 => cases h
  | case8 _ _ _ _ fault' hbody ih =>
    obtain rfl := Except.error.inj h
    exact ih ((List.suffix_cons _ _).trans hcs) hbody

lemma string_fault {quote : Char} {cs : List Char} {fault : LexFault}
    (h : string quote cs = .error fault) : fault.LiesIn cs := by
  simp only [string] at h
  split at h
  · cases h
  · rename_i fault' hbody
    obtain rfl := Except.error.inj h
    exact stringBody_fault (List.tail_suffix cs) hbody

lemma number_fault {cs : List Char} {fault : LexFault} (h : number cs = .error fault) :
    fault.LiesIn cs := by
  have hbody : (if (cs.head? == some '-') = true then cs.tail else cs) <:+ cs := by
    split
    · exact List.tail_suffix cs
    · exact List.suffix_rfl
  simp only [number, List.span_eq_takeWhile_dropWhile] at h
  generalize (if (cs.head? == some '-') = true then cs.tail else cs) = body at h hbody
  by_cases hread : (wellFormedNumber (body.takeWhile isNumberChar) &&
      !startsWord (body.dropWhile isNumberChar)) = true
  · rw [if_pos hread] at h
    cases h
  · rw [if_neg hread] at h
    obtain rfl := Except.error.inj h
    exact ⟨List.suffix_rfl, (List.dropWhile_suffix _).trans hbody⟩

lemma element_fault {cs : List Char} {fault : LexFault} (h : element cs = .error fault) :
    fault.LiesIn cs := by
  cases cs with
  | nil =>
    obtain rfl := Except.error.inj h
    exact liesIn_of_suffix List.suffix_rfl
  | cons c cs =>
    simp only [element] at h
    split_ifs at h with hquote hnumber hword
    · exact string_fault h
    · exact number_fault h
    · split at h
      · cases h
      · obtain rfl := Except.error.inj h
        exact liesIn_of_suffix List.suffix_rfl
    · obtain rfl := Except.error.inj h
      exact liesIn_of_suffix List.suffix_rfl

lemma separator_fault {start cs : List Char} {fault : LexFault} (hcs : cs <:+ start)
    (h : separator start cs = .error fault) : fault.LiesIn start := by
  have hblanks := (skipBlanks_suffix cs).trans hcs
  simp only [separator] at h
  split at h
  · obtain rfl := Except.error.inj h
    exact ⟨List.suffix_rfl, List.nil_suffix⟩
  · rename_i c more hmore
    rw [hmore] at hblanks
    split_ifs at h with hcomma hclosed hclose
    · obtain rfl := Except.error.inj h
      exact liesIn_of_suffix
        ((skipBlanks_suffix more).trans ((List.suffix_cons c more).trans hblanks))
    · obtain rfl := Except.error.inj h
      exact liesIn_of_suffix hblanks

lemma elements_fault {start cs : List Char} {rounds : Nat} {fault : LexFault} (hcs : cs <:+ start)
    (h : elements start rounds cs = .error fault) : fault.LiesIn start := by
  induction rounds generalizing cs with
  | zero =>
    obtain rfl := Except.error.inj h
    exact ⟨List.suffix_rfl, hcs⟩
  | succ rounds ih =>
    simp only [elements] at h
    split at h
    · rename_i fault' hitem
      obtain rfl := Except.error.inj h
      exact (element_fault hitem).mono hcs
    · rename_i item behind hitem
      have hbehind : behind <:+ start :=
        ((element_suffix hitem).trans (List.tail_suffix cs)).trans hcs
      split at h
      · rename_i fault' hsep
        obtain rfl := Except.error.inj h
        exact separator_fault hbehind hsep
      · cases h
      · rename_i more hsep
        split at h
        · rename_i fault' hitems
          obtain rfl := Except.error.inj h
          exact ih ((separator_suffix hsep).trans hbehind) hitems
        · cases h

lemma list_fault {cs : List Char} {fault : LexFault} (h : list cs = .error fault) :
    fault.LiesIn cs := by
  simp only [list] at h
  split at h
  · cases h
  · exact elements_fault ((skipBlanks_suffix _).trans (List.tail_suffix cs)) h

lemma literalToken_fault {scan : Scan Scalar} {fault : LexFault}
    (h : literalToken scan = .error fault) : scan = .error fault := by
  match scan, h with
  | .error fault', h => exact congrArg Except.error (Except.error.inj h)

/-- The fault in place of a token lies in the text from the token on. -/
lemma token_fault {cs : List Char} {fault : LexFault} (h : token cs = .error fault) :
    fault.LiesIn cs := by
  cases cs with
  | nil => cases h
  | cons c cs =>
    simp only [token] at h
    split_ifs at h with hopen hclose hcomma hquote hbracket hnumber hword
    · exact string_fault (literalToken_fault h)
    · split at h
      · cases h
      · rename_i fault' hlist
        obtain rfl := Except.error.inj h
        exact list_fault hlist
    · exact number_fault (literalToken_fault h)
    · obtain rfl := Except.error.inj h
      exact liesIn_of_suffix List.suffix_rfl

/-- The next token stands behind the blanks, and whether it can be read or not, the text goes on behind its
beginning. -/
lemma next_suffix (lexer : Lexer) :
    lexer.next.2.text = lexer.text ∧ lexer.next.2.rest <:+ Text.skipBlanks lexer.rest := by
  rw [next]
  split
  · rename_i u rest htoken
    exact ⟨rfl, (token_suffix htoken).trans (List.tail_suffix _)⟩
  · rename_i fault hfault
    exact ⟨rfl, (token_fault hfault).rest_suffix⟩

/-! ### The tokens up to the first fault -/

/-- The tokens that can be read one after the other, at most a number of them. -/
def readableWithin : Nat → Lexer → List SpannedToken
  | 0, _ => []
  | bound + 1, lexer =>
    match lexer.next with
    | (.error _, _) => []
    | (.ok spanned, lexer) =>
      if spanned.token = .eof then [spanned] else spanned :: readableWithin bound lexer

/-- The tokens that can be read one after the other, up to the end of the text, which is the last of them, or
up to the first fault. -/
def readable (lexer : Lexer) : List SpannedToken := readableWithin (lexer.rest.length + 1) lexer

/-- Every token but the end takes a character, so a larger bound changes nothing. -/
lemma readableWithin_eq {bound : Nat} {lexer : Lexer} (h : lexer.rest.length < bound) :
    readableWithin bound lexer = lexer.readable := by
  have hall : ∀ {bound bound' : Nat} {lexer : Lexer}, lexer.rest.length < bound →
      lexer.rest.length < bound' → readableWithin bound lexer = readableWithin bound' lexer := by
    intro bound
    induction bound with
    | zero => exact fun h => absurd h (Nat.not_lt_zero _)
    | succ bound ih =>
      rintro (_ | bound') lexer hbound hbound'
      · exact absurd hbound' (Nat.not_lt_zero _)
      · rw [readableWithin, readableWithin]
        split
        · rfl
        · rename_i spanned lexer' hnext
          split
          · rfl
          · rename_i hne
            have hlt := length_lt_of_token (next_eq_ok_iff.1 hnext).1 hne
            rw [@ih bound' lexer' (by omega) (by omega)]
  exact hall h (Nat.lt_succ_self _)

lemma readable_of_next {lexer lexer' : Lexer} {spanned : SpannedToken}
    (h : lexer.next = (.ok spanned, lexer')) :
    lexer.readable = if spanned.token = .eof then [spanned] else spanned :: lexer'.readable := by
  rw [readable, readableWithin, h]
  dsimp only
  split
  · rfl
  · rename_i hne
    rw [readableWithin_eq (length_lt_of_token (next_eq_ok_iff.1 h).1 hne)]

/-- The tokens stand behind one another. -/
lemma readableWithin_places {bound : Nat} {lexer : Lexer} (hin : lexer.rest <:+ lexer.text.toList) :
    (∀ u ∈ readableWithin bound lexer, lexer.offset lexer.rest ≤ u.position) ∧
      (readableWithin bound lexer).Pairwise fun u v => u.position < v.position := by
  induction bound generalizing lexer with
  | zero => exact ⟨by simp [readableWithin], .nil⟩
  | succ bound ih =>
    rw [readableWithin]
    split
    · exact ⟨by simp, .nil⟩
    · rename_i spanned lexer' hnext
      obtain ⟨htoken, hposition, htext⟩ := next_eq_ok_iff.1 hnext
      have hblanks := skipBlanks_suffix lexer.rest
      have hfirst : lexer.offset lexer.rest ≤ spanned.position := by
        rw [hposition]
        exact offset_le_offset lexer hblanks
      split
      · exact ⟨by simpa using hfirst, List.pairwise_singleton _ _⟩
      · rename_i hne
        have hstart : Text.skipBlanks lexer.rest ≠ [] := by
          intro hnil
          rw [hnil] at htoken
          exact hne (Prod.mk.inj (Except.ok.inj htoken)).1.symm
        -- a token that is not the end takes a character, and so the next one stands behind it
        have hlt : spanned.position < lexer.offset lexer'.rest := by
          rw [hposition]
          exact offset_lt_offset (hblanks.trans hin) hstart (token_suffix htoken)
        have hin' : lexer'.rest <:+ lexer'.text.toList := by
          rw [htext]
          exact ((token_suffix htoken).trans (List.tail_suffix _)).trans (hblanks.trans hin)
        obtain ⟨hbehind, hpairwise⟩ := ih hin'
        have hmore : ∀ v ∈ readableWithin bound lexer', spanned.position < v.position := by
          intro v hv
          have hle := hbehind v hv
          rw [offset_congr htext] at hle
          exact lt_of_lt_of_le hlt hle
        refine ⟨?_, List.pairwise_cons.2 ⟨hmore, hpairwise⟩⟩
        intro u hu
        rcases List.mem_cons.1 hu with rfl | hu
        · exact hfirst
        · exact hfirst.trans (hmore u hu).le

lemma pairwise_readable {lexer : Lexer} (hin : lexer.rest <:+ lexer.text.toList) :
    lexer.readable.Pairwise fun u v => u.position < v.position :=
  (readableWithin_places hin).2

end Lexer

namespace TokenStream

/-- The tokens that a parser takes, and the one it then stands at, are among the tokens that can be read. -/
lemma Passes.readable {lexer : Lexer} {s s' : TokenStream} {us : List Token}
    (hfirst : lexer.next = (.ok s.current, s.lexer)) (h : s.Passes us s') (hus : .eof ∉ us) :
    ∃ before after, lexer.readable = before ++ s'.current :: after ∧ before.map (·.token) = us := by
  induction h generalizing lexer with
  | refl s =>
    by_cases heof : s.current.token = .eof
    · exact ⟨[], [], by rw [Lexer.readable_of_next hfirst, if_pos heof, List.nil_append], rfl⟩
    · exact ⟨[], _, by rw [Lexer.readable_of_next hfirst, if_neg heof, List.nil_append], rfl⟩
  | @cons s s₁ s' us hnext _ ih =>
    simp only [List.mem_cons, not_or] at hus
    obtain ⟨before, after, hreadable, hmap⟩ := ih hnext hus.2
    refine ⟨s.current :: before, after, ?_, by rw [List.map_cons, hmap]⟩
    rw [Lexer.readable_of_next hfirst, if_neg (Ne.symm hus.1), hreadable, List.cons_append]

/-! ### Reading goes forward -/

/-- The token at the front stands in front of the text that is left. -/
def Placed (s : TokenStream) : Prop := s.current.position ≤ s.lexer.offset s.lexer.rest

/-- The stream `s'` stands where `s` does or behind it, as far as `s` itself is in order. -/
def Precedes (s s' : TokenStream) : Prop :=
  s.Placed → s'.Placed ∧ s.current.position ≤ s'.current.position

lemma Precedes.refl (s : TokenStream) : s.Precedes s := fun h => ⟨h, le_rfl⟩

lemma Precedes.trans {s s₁ s' : TokenStream} (h : s.Precedes s₁) (h' : s₁.Precedes s') :
    s.Precedes s' := by
  intro hs
  obtain ⟨hs₁, hle⟩ := h hs
  obtain ⟨hs', hle'⟩ := h' hs₁
  exact ⟨hs', hle.trans hle'⟩

/-- The token is taken out, its place stays. -/
lemma precedes_blank (s : TokenStream) : s.Precedes s.blank := fun h => ⟨h, le_rfl⟩

/-- A step goes forward, also one that ends in a fault. -/
lemma precedes_advance (s : TokenStream) : s.Precedes s.advance.2 := by
  intro hs
  obtain ⟨htext, hrest⟩ := s.lexer.next_suffix
  have hblanks := Lexer.skipBlanks_suffix s.lexer.rest
  have hgone : s.lexer.offset s.lexer.rest ≤ s.lexer.offset (Text.skipBlanks s.lexer.rest) :=
    s.lexer.offset_le_offset hblanks
  have hmore : s.lexer.offset (Text.skipBlanks s.lexer.rest) ≤ s.lexer.next.2.offset s.lexer.next.2.rest := by
    rw [Lexer.offset_congr htext]
    exact s.lexer.offset_le_offset hrest
  rw [advance]
  split
  · rename_i spanned lexer hnext
    rw [hnext] at hmore
    obtain ⟨-, hposition, -⟩ := Lexer.next_eq_ok_iff.1 hnext
    rw [← hposition] at hgone hmore
    exact ⟨hmore, le_trans hs hgone⟩
  · rename_i e lexer hnext
    rw [hnext] at hmore
    exact ⟨le_trans hs (hgone.trans hmore), le_rfl⟩

end TokenStream

end FilterLang
