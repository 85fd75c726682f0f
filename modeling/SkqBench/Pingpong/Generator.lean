import SkqBench.Lib.CString
import SkqBench.Lib.Decimal
import SkqBench.Pingpong.Util

/-!
# `createGenerator`: the distributions of `dismember`

The argument is tried as a number first, which it is if `atoi` does not return 0.  Then it is taken
apart at `:` and `,`, and the name of the distribution is looked for anywhere in it.  The macro
`DIE` is empty here, so that nothing stops where it stands.

`Documented` is the syntax in the comment of the header and in the description of the options, and
`generatorOK_iff` says for which texts `createGenerator` agrees with it.  Numbers are rational.
-/

namespace Skq.Pingpong

open Lib

/-! ## The code -/

/-- The subclasses of `Generator`. -/
inductive Generator
  | fixed (value : Double)
  | uniform (scale : Double)
  | normal (mean sd : Double)
  | exponential (lambda : Double)
  | gPareto (loc scale shape : Double)
  | gev (loc scale shape : Double)
  | discrete (dflt : Generator) (pv : List (Double × Double))
deriving DecidableEq

/-- How a call ends: a null pointer is dereferenced, an assertion fails, or a pointer is returned,
which is `NULL` for `none`. -/
inductive Created
  | nullPointer
  | abort
  | ret (g : Option Generator)
deriving DecidableEq

/-- `new GPareto`. -/
def newGPareto (loc scale shape : Double) : Created :=
  if shape = .fin 0 then .abort else .ret (some (.gPareto loc scale shape))

/-- `new GEV`. -/
def newGev (loc scale shape : Double) : Created :=
  if shape = .fin 0 then .abort else .ret (some (.gev loc scale shape))

/-- `Discrete::add` for a new generator. -/
def newDiscrete (pv : List (Double × Double)) : Created → Created
  | .ret (some g) => .ret (some (.discrete g pv))
  | .ret none => .ret (some (.discrete (.fixed (.fin 0)) pv))
  | r => r

/-- The pairs of `createFacebookValue`. -/
def facebookValuePv : List (Double × Double) :=
  [(.fin 0.00536, .fin 0), (.fin 0.00047, .fin 1), (.fin 0.17820, .fin 2), (.fin 0.09239, .fin 3),
    (.fin 0.00018, .fin 4), (.fin 0.02740, .fin 5), (.fin 0.00065, .fin 6), (.fin 0.00606, .fin 7),
    (.fin 0.00023, .fin 8), (.fin 0.00837, .fin 9), (.fin 0.00837, .fin 10),
    (.fin 0.08989, .fin 11), (.fin 0.00092, .fin 12), (.fin 0.00326, .fin 13),
    (.fin 0.01980, .fin 14)]

def createFacebookKey : Created := newGev (.fin 30.7984) (.fin 8.20449) (.fin 0.078688)

def createFacebookValue : Created :=
  newDiscrete facebookValuePv (newGPareto (.fin 15) (.fin 214.476) (.fin 0.348238))

def createFacebookIA : Created := newGPareto (.fin 0) (.fin 16.0292) (.fin 0.154971)

/-- `atoi`. -/
def atoi (s : List Char) : ℤ := toInt (strtol s)

/-- A parameter; 0 if there is none. -/
def argOf : Option (List Char) → Double
  | some s => atof s
  | none => .fin 0

/-- The parameters `a1`, `a2` and `a3`, from the text behind the name. -/
def argsOf (a : Option (List Char)) : Double × Double × Double :=
  let s1 := strtokR a ',' none
  let s2 := strtokR none ',' s1.2
  let s3 := strtokR none ',' s2.2
  (argOf s1.1, argOf s2.1, argOf s3.1)

/-- The search for a name. -/
def byName (str : List Char) (a1 a2 a3 : Double) : Created :=
  if strcasestr str "fixed".toList then .ret (some (.fixed a1))
  else if strcasestr str "normal".toList then .ret (some (.normal a1 a2))
  else if strcasestr str "exponential".toList then .ret (some (.exponential a1))
  else if strcasestr str "pareto".toList then newGPareto a1 a2 a3
  else if strcasestr str "gev".toList then newGev a1 a2 a3
  else if strcasestr str "uniform".toList then .ret (some (.uniform a1))
  else .ret none

/-- `createGenerator`. -/
def createGenerator (str : CStr) : Created :=
  if str.chars = "fb_key".toList then createFacebookKey
  else if str.chars = "fb_value".toList then createFacebookValue
  else if str.chars = "fb_ia".toList then createFacebookIA
  else if atoi str.chars ≠ 0 ∨ str.chars = "0".toList then .ret (some (.fixed (atof str.chars)))
  else
    let t := strtokR (some str.chars) ':' none
    let a := strtokR none ':' t.2
    match t.1 with
    | none => .nullPointer -- the first character of the name
    | some _ =>
      let args := argsOf a.1
      byName str.chars args.1 args.2.1 args.2.2

/-! ## The syntax -/

/-- Numbers with `,` between them. -/
def params (vs : List Literal) : List Char := [','].intercalate (vs.map Literal.text)

/-- The distributions that have parameters. -/
inductive Distribution
  | fixed
  | normal
  | exponential
  | pareto
  | gev
  | uniform
deriving DecidableEq

namespace Distribution

def name : Distribution → List Char
  | fixed => "fixed".toList
  | normal => "normal".toList
  | exponential => "exponential".toList
  | pareto => "pareto".toList
  | gev => "gev".toList
  | uniform => "uniform".toList

/-- The number of parameters. -/
def arity : Distribution → ℕ
  | normal => 2
  | pareto | gev => 3
  | _ => 1

/-- The number of parameters that are required. -/
def required : Distribution → ℕ
  | fixed => 1
  | _ => 0

/-- The generator with parameters `a`. -/
def generator : Distribution → (ℕ → ℚ) → Generator
  | fixed, a => .fixed (.fin (a 0))
  | normal, a => .normal (.fin (a 0)) (.fin (a 1))
  | exponential, a => .exponential (.fin (a 0))
  | pareto, a => .gPareto (.fin (a 0)) (.fin (a 1)) (.fin (a 2))
  | gev, a => .gev (.fin (a 0)) (.fin (a 1)) (.fin (a 2))
  | uniform, a => .uniform (.fin (a 0))

/-- The name, `:` and the parameters. -/
def text (d : Distribution) (vs : List Literal) : List Char := d.name ++ ':' :: params vs

end Distribution

/-- Parameter `i`; a missing one is 0. -/
def param (vs : List Literal) (i : ℕ) : ℚ := (vs[i]?.map Literal.value).getD 0

/-- The generators for the requests of Facebook. -/
def facebookKey : Generator := .gev (.fin 30.7984) (.fin 8.20449) (.fin 0.078688)

def facebookValue : Generator :=
  .discrete (.gPareto (.fin 15) (.fin 214.476) (.fin 0.348238)) facebookValuePv

def facebookIA : Generator := .gPareto (.fin 0) (.fin 16.0292) (.fin 0.154971)

/-- The generator of a text. -/
inductive Documented : List Char → Generator → Prop
  | literal (v : Literal) : Documented v.text (.fixed (.fin v.value))
  | distribution (d : Distribution) (vs : List Literal) (hmin : d.required ≤ vs.length)
      (hmax : vs.length ≤ d.arity) : Documented (d.text vs) (d.generator (param vs))
  | fbKey : Documented "fb_key".toList facebookKey
  | fbValue : Documented "fb_value".toList facebookValue
  | fbIA : Documented "fb_ia".toList facebookIA

/-- `createGenerator` returns the generator of the text, and `NULL` if it has none. -/
def GeneratorOK (str : CStr) : Prop :=
  (∀ g, Documented str.chars g → createGenerator str = .ret (some g)) ∧
    ((∀ g, ¬ Documented str.chars g) → createGenerator str = .ret none)

/-- The texts for which that is so.
* `literal`: `atoi` of a number is not 0, or the number is written `0`.
* `shape`: a Pareto or an extreme value distribution has a shape, and it is not 0.
* `other`: a text that is not in the syntax does not begin with a number, is not made of `:` only,
  and has no name in it. -/
structure GeneratorFit (str : CStr) : Prop where
  literal : ∀ v : Literal, str.chars = v.text → atoi str.chars ≠ 0 ∨ str.chars = "0".toList
  shape : ∀ (d : Distribution) (vs : List Literal), str.chars = d.text vs → d.arity = 3 →
    vs.length ≤ 3 → param vs 2 ≠ 0
  other : (∀ g, ¬ Documented str.chars g) → atoi str.chars = 0 ∧ (∃ c ∈ str.chars, c ≠ ':') ∧
    ∀ d : Distribution, ¬ strcasestr str.chars d.name

/-! ## Names -/

variable {str : CStr} {s : List Char} {a1 a2 a3 : Double}

/-- The texts that are compared first. -/
def facebookNames : List (List Char) := ["fb_key".toList, "fb_value".toList, "fb_ia".toList]

lemma newGPareto_ne_null {loc scale shape : Double} : newGPareto loc scale shape ≠ .ret none := by
  rw [newGPareto]
  split <;> simp

lemma newGev_ne_null {loc scale shape : Double} : newGev loc scale shape ≠ .ret none := by
  rw [newGev]
  split <;> simp

/-- `NULL` is returned iff no name is found. -/
lemma byName_eq_null_iff :
    byName s a1 a2 a3 = .ret none ↔ ∀ d : Distribution, ¬ strcasestr s d.name := by
  constructor
  · intro h
    rw [byName] at h
    split_ifs at h with hfixed hnormal hexponential hpareto hgev huniform
    · cases h
    · cases h
    · cases h
    · exact absurd h newGPareto_ne_null
    · exact absurd h newGev_ne_null
    · cases h
    · intro d
      cases d with
      | fixed => exact hfixed
      | normal => exact hnormal
      | exponential => exact hexponential
      | pareto => exact hpareto
      | gev => exact hgev
      | uniform => exact huniform
  · intro h
    have hfixed : ¬ strcasestr s "fixed".toList := h .fixed
    have hnormal : ¬ strcasestr s "normal".toList := h .normal
    have hexponential : ¬ strcasestr s "exponential".toList := h .exponential
    have hpareto : ¬ strcasestr s "pareto".toList := h .pareto
    have hgev : ¬ strcasestr s "gev".toList := h .gev
    have huniform : ¬ strcasestr s "uniform".toList := h .uniform
    rw [byName, if_neg hfixed, if_neg hnormal, if_neg hexponential, if_neg hpareto, if_neg hgev,
      if_neg huniform]

lemma params_cons (v : Literal) {vs : List Literal} (h : vs ≠ []) :
    params (v :: vs) = v.text ++ ',' :: params vs := by
  obtain ⟨w, vs, rfl⟩ := List.exists_cons_of_ne_nil h
  simp only [params, List.map_cons, List.intercalate_cons_cons]
  simp

lemma params_ne_nil {vs : List Literal} (h : vs ≠ []) : params vs ≠ [] := by
  obtain ⟨v, vs, rfl⟩ := List.exists_cons_of_ne_nil h
  by_cases hnil : vs = []
  · subst hnil
    simpa [params] using v.text_ne_nil
  · rw [params_cons v hnil]
    exact List.append_ne_nil_of_left_ne_nil v.text_ne_nil _

lemma mem_params {c : Char} {vs : List Literal} (h : c ∈ params vs) :
    c.isDigit = true ∨ c = '.' ∨ c = ',' := by
  induction vs with
  | nil => simp [params] at h
  | cons v vs ih =>
    by_cases hnil : vs = []
    · subst hnil
      have htext : c ∈ v.text := by simpa [params] using h
      exact (v.of_mem_text htext).imp_right .inl
    · rw [params_cons v hnil, List.mem_append, List.mem_cons] at h
      rcases h with h | rfl | h
      · exact (v.of_mem_text h).imp_right .inl
      · exact .inr (.inr rfl)
      · exact ih h

/-- Every name has an `e` or an `n`. -/
lemma Distribution.mem_name (d : Distribution) :
    'e' ∈ d.name.map Char.toLower ∨ 'n' ∈ d.name.map Char.toLower := by
  cases d <;> decide

/-- A text of digits, points and commas has no name in it. -/
lemma not_strcasestr (d : Distribution)
    (h : ∀ c ∈ s, c.isDigit = true ∨ c = '.' ∨ c = ',') : ¬ strcasestr s d.name := by
  intro hfound
  have hlower : ∀ c ∈ s.map Char.toLower, c.isDigit = true ∨ c = '.' ∨ c = ',' := by
    intro c hc
    obtain ⟨x, hx, rfl⟩ := List.mem_map.1 hc
    rcases h x hx with hdigit | rfl | rfl
    · rw [toLower_of_isDigit hdigit]
      exact .inl hdigit
    · exact .inr (.inl rfl)
    · exact .inr (.inr rfl)
  rcases d.mem_name with hletter | hletter <;>
    exact absurd (hlower _ (hfound.subset hletter)) (by decide)

/-- The name that is found in a text is the one in front. -/
lemma strcasestr_text {d d' : Distribution} {vs : List Literal} :
    strcasestr (d.text vs) d'.name ↔ d' = d := by
  have hnames : ∀ d d' : Distribution,
      d'.name.map Char.toLower <:+: d.name.map Char.toLower → d' = d := by
    intro d d'
    cases d <;> cases d' <;> decide +kernel
  have hcolon : ':' ∉ d'.name.map Char.toLower := by cases d' <;> decide
  constructor
  · intro h
    rw [strcasestr, Distribution.text, List.map_append, List.map_cons] at h
    rcases infix_append_cons hcolon h with hname | hparams
    · exact hnames d d' hname
    · exact absurd hparams (not_strcasestr d' fun c hc => mem_params hc)
  · rintro rfl
    rw [strcasestr, Distribution.text, List.map_append]
    exact List.infix_append_left

/-! ## Parameters -/

/-- What is left for `strtok_r`. -/
def left (vs : List Literal) : Option (List Char) := if vs = [] then none else some (params vs)

lemma comma_notMem_text (v : Literal) : ',' ∉ v.text := fun h => by
  rcases v.of_mem_text h with h | h
  · exact absurd h (by decide)
  · exact absurd h (by decide)

/-- One more parameter. -/
lemma strtokR_left {vs : List Literal} {s saved : Option (List Char)} (h : s.or saved = left vs) :
    strtokR s ',' saved = (vs.head?.map Literal.text, left vs.tail) := by
  rw [strtokR_saved, h]
  cases vs with
  | nil => rfl
  | cons v vs =>
    have hfree := comma_notMem_text v
    by_cases hnil : vs = []
    · subst hnil
      simp [left, params, strtokR_self v.text_ne_nil hfree]
    · simp [left, hnil, params_cons v hnil, strtokR_append v.text_ne_nil hfree]

lemma argOf_text {vs : List Literal} {i : ℕ} :
    argOf (vs[i]?.map Literal.text) = .fin (param vs i) := by
  cases hv : vs[i]? with
  | none => simp [argOf, param, hv]
  | some v => simp [argOf, param, hv, atof, v.strtod_text]

/-- **The parameters** are the first three numbers. -/
lemma argsOf_left (vs : List Literal) :
    argsOf (left vs) = (.fin (param vs 0), .fin (param vs 1), .fin (param vs 2)) := by
  have hnext : ∀ vs : List Literal,
      strtokR none ',' (left vs) = (vs.head?.map Literal.text, left vs.tail) :=
    fun _ => strtokR_left rfl
  rw [argsOf, strtokR_left (Option.or_none (o := left vs)), hnext, hnext]
  simp [← argOf_text, List.head?_eq_getElem?, List.getElem?_tail]

/-! ## The result -/

/-- Where only one name is found. -/
lemma byName_of_iff {d : Distribution} {a : ℕ → ℚ}
    (h : ∀ d' : Distribution, strcasestr s d'.name ↔ d' = d) :
    byName s (.fin (a 0)) (.fin (a 1)) (.fin (a 2)) =
      if d.arity = 3 ∧ a 2 = 0 then .abort else .ret (some (d.generator a)) := by
  have hfixed : strcasestr s "fixed".toList ↔ Distribution.fixed = d := h .fixed
  have hnormal : strcasestr s "normal".toList ↔ Distribution.normal = d := h .normal
  have hexponential : strcasestr s "exponential".toList ↔ Distribution.exponential = d :=
    h .exponential
  have hpareto : strcasestr s "pareto".toList ↔ Distribution.pareto = d := h .pareto
  have hgev : strcasestr s "gev".toList ↔ Distribution.gev = d := h .gev
  have huniform : strcasestr s "uniform".toList ↔ Distribution.uniform = d := h .uniform
  simp only [byName, hfixed, hnormal, hexponential, hpareto, hgev, huniform]
  cases d <;> simp [newGPareto, newGev, Distribution.arity, Distribution.generator]

/-- A text that is none of the first ones. -/
lemma createGenerator_of_notMem (hfb : str.chars ∉ facebookNames) : createGenerator str =
    if atoi str.chars ≠ 0 ∨ str.chars = "0".toList then .ret (some (.fixed (atof str.chars)))
    else
      match (strtokR (some str.chars) ':' none).1 with
      | none => .nullPointer
      | some _ =>
        let args := argsOf (strtokR none ':' (strtokR (some str.chars) ':' none).2).1
        byName str.chars args.1 args.2.1 args.2.2 := by
  simp only [facebookNames, List.mem_cons, List.not_mem_nil, or_false, not_or] at hfb
  obtain ⟨hkey, hvalue, hia⟩ := hfb
  rw [createGenerator, if_neg hkey, if_neg hvalue, if_neg hia]

/-- A text that the names are looked for in. -/
lemma createGenerator_of_char (hfb : str.chars ∉ facebookNames)
    (hnum : ¬ (atoi str.chars ≠ 0 ∨ str.chars = "0".toList)) (hchar : ∃ c ∈ str.chars, c ≠ ':')
    {a : Option (List Char)} (ha : (strtokR none ':' (strtokR (some str.chars) ':' none).2).1 = a) :
    createGenerator str = byName str.chars (argsOf a).1 (argsOf a).2.1 (argsOf a).2.2 := by
  rw [createGenerator_of_notMem hfb, if_neg hnum]
  simp only [strtokR_fst hchar, ha]

/-- A text of `:` only. -/
lemma createGenerator_of_all (hfb : str.chars ∉ facebookNames)
    (hnum : ¬ (atoi str.chars ≠ 0 ∨ str.chars = "0".toList)) (hall : ∀ c ∈ str.chars, c = ':') :
    createGenerator str = .nullPointer := by
  rw [createGenerator_of_notMem hfb, if_neg hnum]
  simp only [strtokR_of_all hall]

/-- **A number.** -/
lemma createGenerator_literal {v : Literal} (h : str.chars = v.text) : createGenerator str =
    if atoi str.chars ≠ 0 ∨ str.chars = "0".toList then .ret (some (.fixed (.fin v.value)))
    else .ret none := by
  have hchars : ∀ c ∈ str.chars, c.isDigit = true ∨ c = '.' ∨ c = ',' := fun c hc =>
    (v.of_mem_text (h ▸ hc)).imp_right .inl
  have hfb : str.chars ∉ facebookNames := by
    intro hmem
    have hf : ∀ w ∈ facebookNames, 'f' ∈ w := by decide
    exact absurd (hchars 'f' (hf _ hmem)) (by decide)
  by_cases hnum : atoi str.chars ≠ 0 ∨ str.chars = "0".toList
  · rw [createGenerator_of_notMem hfb, if_pos hnum, if_pos hnum, atof, h, v.strtod_text]
  · obtain ⟨c, s, htext, hdigit⟩ := v.exists_text_eq_cons
    have hchar : ∃ c ∈ str.chars, c ≠ ':' := by
      refine ⟨c, by simp [h, htext], ?_⟩
      rintro rfl
      exact absurd hdigit (by decide)
    rw [if_neg hnum, createGenerator_of_char hfb hnum hchar rfl, byName_eq_null_iff]
    exact fun d => not_strcasestr d hchars

/-- **A distribution with parameters.** -/
lemma createGenerator_text {d : Distribution} {vs : List Literal} (h : str.chars = d.text vs) :
    createGenerator str =
      if d.arity = 3 ∧ param vs 2 = 0 then .abort else .ret (some (d.generator (param vs))) := by
  have hfb : str.chars ∉ facebookNames := by
    intro hmem
    have hcolon : ∀ w ∈ facebookNames, ':' ∉ w := by decide
    exact hcolon _ hmem (by simp [h, Distribution.text])
  have hnum : ¬ (atoi str.chars ≠ 0 ∨ str.chars = "0".toList) := by
    rw [h, not_or, not_not]
    constructor
    · have hstrtol : strtol (d.text vs) = 0 := by
        cases d <;> exact strtol_cons (by decide) (by decide) (by decide) (by decide)
      rw [atoi, hstrtol]
      rfl
    · cases d <;> exact fun heq => absurd (List.cons.inj heq).1 (by decide)
  have hname : d.name ≠ [] ∧ ':' ∉ d.name := by cases d <;> decide
  have hchar : ∃ c ∈ str.chars, c ≠ ':' := by
    obtain ⟨c, hc⟩ := List.exists_mem_of_ne_nil _ hname.1
    exact ⟨c, by simp [h, Distribution.text, hc], fun heq => hname.2 (heq ▸ hc)⟩
  have hleft : (strtokR none ':' (strtokR (some str.chars) ':' none).2).1 = left vs := by
    rw [h, Distribution.text, strtokR_append hname.1 hname.2, strtokR_saved, Option.none_or]
    by_cases hnil : vs = []
    · subst hnil
      rfl
    · have hcolon : ':' ∉ params vs := fun hmem => absurd (mem_params hmem) (by decide)
      have hne : params vs ≠ [] := params_ne_nil hnil
      rw [strtokR_self hne hcolon, left, if_neg hnil]
  rw [createGenerator_of_char hfb hnum hchar hleft, argsOf_left]
  exact byName_of_iff fun d' => by rw [h, strcasestr_text]

/-- **The generators for the requests of Facebook.** -/
lemma createGenerator_facebook :
    createFacebookKey = .ret (some facebookKey) ∧ createFacebookValue = .ret (some facebookValue) ∧
      createFacebookIA = .ret (some facebookIA) := by
  decide +kernel

/-- What is not in the syntax is neither one of the first texts nor `0`. -/
lemma notMem_of_not_documented (h : ∀ g, ¬ Documented s g) :
    s ∉ facebookNames ∧ s ≠ "0".toList := by
  constructor
  · intro hmem
    simp only [facebookNames, List.mem_cons, List.not_mem_nil, or_false] at hmem
    rcases hmem with rfl | rfl | rfl
    · exact h _ .fbKey
    · exact h _ .fbValue
    · exact h _ .fbIA
  · rintro rfl
    exact h _ (Documented.literal ⟨['0'], [], by simp, by simp, by simp⟩)

/-- **`createGenerator` agrees with the syntax** iff a number is one for `atoi` or is `0`, a shape is
not 0, and a text that is not in the syntax does not look like a number or a name. -/
theorem generatorOK_iff (str : CStr) : GeneratorOK str ↔ GeneratorFit str := by
  constructor
  · rintro ⟨hdocumented, hother⟩
    refine ⟨fun v hv => ?_, fun d vs htext harity hlen hzero => ?_, fun hno => ?_⟩
    · by_contra hnum
      have hg := hdocumented _ (hv ▸ Documented.literal v)
      rw [createGenerator_literal hv, if_neg hnum] at hg
      cases hg
    · have hmin : d.required ≤ vs.length := by
        cases d <;> first | exact Nat.zero_le _ | cases harity
      have hg := hdocumented _ (htext ▸
        Documented.distribution d vs hmin (hlen.trans_eq harity.symm))
      rw [createGenerator_text htext, if_pos ⟨harity, hzero⟩] at hg
      cases hg
    · have hnull := hother hno
      obtain ⟨hfb, hzero⟩ := notMem_of_not_documented hno
      have hatoi : atoi str.chars = 0 := by
        by_contra hne
        rw [createGenerator_of_notMem hfb, if_pos (.inl hne)] at hnull
        cases hnull
      have hnum : ¬ (atoi str.chars ≠ 0 ∨ str.chars = "0".toList) :=
        not_or.2 ⟨not_not.2 hatoi, hzero⟩
      have hchar : ∃ c ∈ str.chars, c ≠ ':' := by
        by_contra hall
        rw [createGenerator_of_all hfb hnum (by simpa using hall)] at hnull
        cases hnull
      rw [createGenerator_of_char hfb hnum hchar rfl, byName_eq_null_iff] at hnull
      exact ⟨hatoi, hchar, hnull⟩
  · intro h
    constructor
    · intro g hg
      generalize hs : str.chars = s at hg
      cases hg with
      | literal v => rw [createGenerator_literal hs, if_pos (h.literal v hs)]
      | distribution d vs hmin hmax =>
        rw [createGenerator_text hs, if_neg]
        exact fun ⟨harity, hzero⟩ => h.shape d vs hs harity (hmax.trans_eq harity) hzero
      | fbKey =>
        rw [createGenerator, hs]
        exact createGenerator_facebook.1
      | fbValue =>
        rw [createGenerator, hs]
        exact createGenerator_facebook.2.1
      | fbIA =>
        rw [createGenerator, hs]
        exact createGenerator_facebook.2.2
    · intro hno
      obtain ⟨hfb, hzero⟩ := notMem_of_not_documented hno
      obtain ⟨hatoi, hchar, hnames⟩ := h.other hno
      rw [createGenerator_of_char hfb (not_or.2 ⟨not_not.2 hatoi, hzero⟩) hchar rfl]
      exact byName_eq_null_iff.2 hnames

/-- `0.5` is not taken for a number. -/
theorem not_generatorOK_half : ¬ GeneratorOK ⟨"0.5".toList, by decide⟩ := by
  intro h
  have hg := h.1 _ (Documented.literal ⟨['0'], ['5'], by simp, by simp, by simp⟩)
  exact absurd hg (by decide +kernel)

end Skq.Pingpong
