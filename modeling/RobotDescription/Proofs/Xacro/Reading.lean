import RobotDescription.Proofs.Xacro.Reader

/-!
# Laws of the reader

Two judgements say what a reader does with a text whatever follows it: it takes exactly the text, or
it refuses to begin there. Every way of putting readers together has a law for each.
-/

namespace RobotDescription.Xacro.Reader

variable {α β ι : Type}

/-- Whatever follows the text, the reader takes exactly the text and answers with the value. -/
def Reads (reader : Reader α) (text : String) (value : α) : Prop :=
  ∀ rest, reader (text.toList ++ rest) = some (value, rest)

/-- Whatever follows the text, the reader fails where the text begins. -/
def Refuses (reader : Reader α) (text : String) : Prop :=
  ∀ rest, reader (text.toList ++ rest) = none

theorem bind_eq_of_eq_some {first : Reader α} {next : α → Reader β} {input rest : List Char}
    {a : α} (hfirst : first input = some (a, rest)) : (first >>= next) input = next a rest := by
  change (first input).bind _ = _
  rw [hfirst]
  rfl

theorem reads_pure (value : α) : Reads (pure value) "" value :=
  fun _ => rfl

theorem reads_lift {found : Option α} {value : α} (hfound : found = some value) :
    Reads (liftM found) "" value := by
  subst hfound
  exact fun _ => rfl

theorem reads_bind {first : Reader α} {next : α → Reader β} {front back : String} {a : α} {b : β}
    (hfirst : Reads first front a) (hnext : Reads (next a) back b) :
    Reads (first >>= next) (front ++ back) b := by
  intro rest
  rw [String.toList_append, List.append_assoc, bind_eq_of_eq_some (hfirst _)]
  exact hnext rest

theorem Reads.map {first : Reader α} {text : String} {a : α} (hfirst : Reads first text a)
    (f : α → β) : Reads (first >>= fun x => pure (f x)) text (f a) := by
  intro rest
  rw [bind_eq_of_eq_some (hfirst rest)]
  rfl

theorem reads_word (text : String) : Reads (word text) text () := by
  intro rest
  simp [word]

theorem refuses_word {mark text : String} (i : Nat) {c d : Char} (hmark : mark.toList[i]? = some c)
    (htext : text.toList[i]? = some d) (hne : c ≠ d) : Refuses (word mark) text := by
  intro rest
  refine if_neg fun hstarts => hne ?_
  obtain ⟨tail, htail⟩ := List.isPrefixOf_iff_prefix.mp hstarts
  have hleft : (mark.toList ++ tail)[i]? = some c := by
    rw [List.getElem?_append_left (List.getElem?_eq_some_iff.mp hmark).1, hmark]
  have hright : (text.toList ++ rest)[i]? = some d := by
    rw [List.getElem?_append_left (List.getElem?_eq_some_iff.mp htext).1, htext]
  rw [htail, hright] at hleft
  exact (Option.some.inj hleft).symm

theorem reads_orElse_left {first second : Reader α} {text : String} {value : α}
    (hfirst : Reads first text value) : Reads (first <|> second) text value := by
  intro rest
  change (first _ <|> second _) = _
  rw [hfirst rest]
  rfl

theorem reads_orElse_right {first second : Reader α} {text : String} {value : α}
    (hfirst : Refuses first text) (hsecond : Reads second text value) :
    Reads (first <|> second) text value := by
  intro rest
  change (first _ <|> second _) = _
  rw [hfirst rest]
  exact hsecond rest

theorem Refuses.append {reader : Reader α} {text : String} (hrefuses : Refuses reader text)
    (more : String) : Refuses reader (text ++ more) := by
  intro rest
  rw [String.toList_append, List.append_assoc]
  exact hrefuses _

theorem Refuses.bind {first : Reader α} {text : String} (hfirst : Refuses first text)
    (next : α → Reader β) : Refuses (first >>= next) text := by
  intro rest
  change (first _).bind _ = _
  rw [hfirst rest]
  rfl

theorem Refuses.orElse {first second : Reader α} {text : String} (hfirst : Refuses first text)
    (hsecond : Refuses second text) : Refuses (first <|> second) text := by
  intro rest
  change (first _ <|> second _) = _
  rw [hfirst rest]
  exact hsecond rest

theorem Refuses.ne_empty {reader : Reader α} {text other : String} {value : α}
    (hrefuses : Refuses reader text) (hreads : Reads reader other value) : text ≠ "" := by
  rintro rfl
  have hnothing := hrefuses (other.toList ++ [])
  rw [String.toList_empty, List.nil_append, hreads []] at hnothing
  cases hnothing

/-- What comes before the first mark is read if the mark begins nowhere in it. -/
theorem reads_upTo {mark text : String} (hmark : mark ≠ "")
    (hfirst : ∀ suffix, suffix ≠ [] → suffix <:+ text.toList → ∀ rest,
      ¬ mark.toList <+: suffix ++ (mark.toList ++ rest)) :
    Reads (upTo mark) (text ++ mark) text.toList := by
  intro rest
  rw [String.toList_append, List.append_assoc]
  generalize text.toList = characters at hfirst ⊢
  induction characters with
  | nil =>
      obtain ⟨c, tail, hcons⟩ := List.exists_cons_of_ne_nil (mt String.toList_eq_nil_iff.mp hmark)
      simp [hcons, upTo]
  | cons c tail ih =>
      have hhere : mark.toList.isPrefixOf (c :: (tail ++ (mark.toList ++ rest))) = false := by
        have hnot := hfirst (c :: tail) (List.cons_ne_nil c tail) (List.suffix_refl _) rest
        exact Bool.eq_false_iff.mpr (mt List.isPrefixOf_iff_prefix.mp hnot)
      have hlater := ih fun suffix hne hends =>
        hfirst suffix hne (hends.trans (List.suffix_cons c tail))
      simp [upTo, hhere, hlater]

theorem reads_upTo_char {c : Char} {mark text : String} (hmark : mark.toList = [c])
    (habsent : c ∉ text.toList) : Reads (upTo mark) (text ++ mark) text.toList := by
  refine reads_upTo (fun hempty => by simp [hempty] at hmark) fun suffix hne hends rest => ?_
  obtain ⟨first, tail, rfl⟩ := List.exists_cons_of_ne_nil hne
  rw [hmark]
  intro hstarts
  have hsame : c = first := (List.cons_prefix_cons.mp hstarts).1
  exact habsent (hends.subset (hsame ▸ List.mem_cons_self))

/-- Items are read one after the other if the end cannot be read where an item begins. -/
theorem reads_untilEnd {item : Reader α} {finish : Reader β} {items : List ι} {text : ι → String}
    {value : ι → α} {ending : String} {last : β}
    (hitems : ∀ x ∈ items, Reads item (text x) (value x))
    (hgoes : ∀ x ∈ items, Refuses finish (text x)) (hfinish : Reads finish ending last) :
    Reads (untilEnd item finish) (String.join (items.map text) ++ ending)
      (items.map value, last) := by
  intro rest
  induction items with
  | nil =>
      rw [untilEnd]
      simp [hfinish rest]
  | cons x tail ih =>
      have hhead := hgoes x List.mem_cons_self
      have hlater := ih (fun y hy => hitems y (List.mem_cons_of_mem _ hy))
        fun y hy => hgoes y (List.mem_cons_of_mem _ hy)
      -- an item without text would let the end be read where it begins
      have hlength : 0 < (text x).toList.length :=
        List.length_pos_iff.mpr (mt String.toList_eq_nil_iff.mp (hhead.ne_empty hfinish))
      rw [List.map_cons, String.join_cons, String.append_assoc, String.toList_append,
        List.append_assoc, untilEnd, hhead, hitems x List.mem_cons_self]
      dsimp only
      rw [hlater, if_pos (by simp only [List.length_append]; omega)]
      rfl

end RobotDescription.Xacro.Reader
