/-!
# Names of Unicode properties

The names of properties and of their values. Each entry gives a full name and the plain
spellings of it: lower case, without blanks, hyphens and underscores.
-/

namespace Feel

namespace Unicode

/-- Names of properties. -/
def propertyAliases : List (String × String) := [
  ("Age", "age"), ("ASCII_Hex_Digit", "ahex asciihexdigit"), ("Alphabetic", "alpha alphabetic"),
  ("Bidi_Class", "bc bidiclass"), ("Bidi_Control", "bidic bidicontrol"),
  ("Bidi_Mirrored", "bidim bidimirrored"), ("Bidi_Mirroring_Glyph", "bidimirroringglyph bmg"),
  ("Bidi_Paired_Bracket", "bidipairedbracket bpb"),
  ("Bidi_Paired_Bracket_Type", "bidipairedbrackettype bpt"), ("Block", "blk block"),
  ("Canonical_Combining_Class", "canonicalcombiningclass ccc"), ("Cased", "cased"),
  ("Case_Folding", "casefolding cf"), ("Case_Ignorable", "caseignorable ci"),
  ("Composition_Exclusion", "ce compositionexclusion"),
  ("Changes_When_Casefolded", "changeswhencasefolded cwcf"),
  ("Changes_When_Casemapped", "changeswhencasemapped cwcm"),
  ("Changes_When_Lowercased", "changeswhenlowercased cwl"),
  ("Changes_When_NFKC_Casefolded", "changeswhennfkccasefolded cwkcf"),
  ("Changes_When_Titlecased", "changeswhentitlecased cwt"),
  ("Changes_When_Uppercased", "changeswhenuppercased cwu"),
  ("kAccountingNumeric", "cjkaccountingnumeric kaccountingnumeric"),
  ("kCompatibilityVariant", "cjkcompatibilityvariant kcompatibilityvariant"),
  ("kIICore", "cjkiicore kiicore"), ("kIRG_GSource", "cjkirggsource kirggsource"),
  ("kIRG_HSource", "cjkirghsource kirghsource"), ("kIRG_JSource", "cjkirgjsource kirgjsource"),
  ("kIRG_KPSource", "cjkirgkpsource kirgkpsource"),
  ("kIRG_KSource", "cjkirgksource kirgksource"), ("kIRG_MSource", "cjkirgmsource kirgmsource"),
  ("kIRG_SSource", "cjkirgssource kirgssource"), ("kIRG_TSource", "cjkirgtsource kirgtsource"),
  ("kIRG_UKSource", "cjkirguksource kirguksource"),
  ("kIRG_USource", "cjkirgusource kirgusource"), ("kIRG_VSource", "cjkirgvsource kirgvsource"),
  ("kOtherNumeric", "cjkothernumeric kothernumeric"),
  ("kPrimaryNumeric", "cjkprimarynumeric kprimarynumeric"),
  ("kRSUnicode", "cjkrsunicode krsunicode unicoderadicalstroke urs"),
  ("Full_Composition_Exclusion", "compex fullcompositionexclusion"), ("Dash", "dash"),
  ("Decomposition_Mapping", "decompositionmapping dm"),
  ("Decomposition_Type", "decompositiontype dt"),
  ("Default_Ignorable_Code_Point", "defaultignorablecodepoint di"),
  ("Deprecated", "dep deprecated"), ("Diacritic", "dia diacritic"),
  ("East_Asian_Width", "ea eastasianwidth"), ("Emoji_Modifier_Base", "ebase emojimodifierbase"),
  ("Emoji_Component", "ecomp emojicomponent"), ("Emoji_Modifier", "emod emojimodifier"),
  ("Emoji", "emoji"), ("Emoji_Presentation", "emojipresentation epres"),
  ("Equivalent_Unified_Ideograph", "equideo equivalentunifiedideograph"),
  ("Expands_On_NFC", "expandsonnfc xonfc"), ("Expands_On_NFD", "expandsonnfd xonfd"),
  ("Expands_On_NFKC", "expandsonnfkc xonfkc"), ("Expands_On_NFKD", "expandsonnfkd xonfkd"),
  ("Extender", "ext extender"), ("Extended_Pictographic", "extendedpictographic extpict"),
  ("FC_NFKC_Closure", "fcnfkc fcnfkcclosure"), ("General_Category", "gc generalcategory"),
  ("Grapheme_Cluster_Break", "gcb graphemeclusterbreak"),
  ("Grapheme_Base", "graphemebase grbase"), ("Grapheme_Extend", "graphemeextend grext"),
  ("Grapheme_Link", "graphemelink grlink"), ("Hangul_Syllable_Type", "hangulsyllabletype hst"),
  ("Hex_Digit", "hex hexdigit"), ("Hyphen", "hyphen"), ("ID_Continue", "idc idcontinue"),
  ("ID_Compat_Math_Continue", "idcompatmathcontinue"),
  ("ID_Compat_Math_Start", "idcompatmathstart"), ("Ideographic", "ideo ideographic"),
  ("ID_Start", "ids idstart"), ("IDS_Binary_Operator", "idsb idsbinaryoperator"),
  ("IDS_Trinary_Operator", "idst idstrinaryoperator"),
  ("IDS_Unary_Operator", "idsu idsunaryoperator"),
  ("Indic_Conjunct_Break", "incb indicconjunctbreak"),
  ("Indic_Positional_Category", "indicpositionalcategory inpc"),
  ("Indic_Syllabic_Category", "indicsyllabiccategory insc"), ("ISO_Comment", "isc ocomment"),
  ("Jamo_Short_Name", "jamoshortname jsn"), ("Joining_Group", "jg joininggroup"),
  ("Join_Control", "joinc joincontrol"), ("Joining_Type", "joiningtype jt"),
  ("kEH_Cat", "kehcat"), ("kEH_Desc", "kehdesc"), ("kEH_HG", "kehhg"), ("kEH_IFAO", "kehifao"),
  ("kEH_JSesh", "kehjsesh"), ("kEH_NoMirror", "kehnomirror"), ("kEH_NoRotate", "kehnorotate"),
  ("Line_Break", "lb linebreak"), ("Lowercase_Mapping", "lc lowercasemapping"),
  ("Logical_Order_Exception", "loe logicalorderexception"), ("Lowercase", "lower lowercase"),
  ("Math", "math"), ("Modifier_Combining_Mark", "mcm modifiercombiningmark"),
  ("Name", "na name"), ("Unicode_1_Name", "na1 unicode1name"), ("Name_Alias", "namealias"),
  ("Noncharacter_Code_Point", "nchar noncharactercodepoint"),
  ("NFC_Quick_Check", "nfcqc nfcquickcheck"), ("NFD_Quick_Check", "nfdqc nfdquickcheck"),
  ("NFKC_Casefold", "nfkccasefold nfkccf"), ("NFKC_Quick_Check", "nfkcqc nfkcquickcheck"),
  ("NFKC_Simple_Casefold", "nfkcscf nfkcsimplecasefold"),
  ("NFKD_Quick_Check", "nfkdqc nfkdquickcheck"), ("Numeric_Type", "nt numerictype"),
  ("Numeric_Value", "numericvalue nv"), ("Other_Alphabetic", "oalpha otheralphabetic"),
  ("Other_Default_Ignorable_Code_Point", "odi otherdefaultignorablecodepoint"),
  ("Other_Grapheme_Extend", "ogrext othergraphemeextend"),
  ("Other_ID_Continue", "oidc otheridcontinue"), ("Other_ID_Start", "oids otheridstart"),
  ("Other_Lowercase", "olower otherlowercase"), ("Other_Math", "omath othermath"),
  ("Other_Uppercase", "otheruppercase oupper"), ("Pattern_Syntax", "patsyn patternsyntax"),
  ("Pattern_White_Space", "patternwhitespace patws"),
  ("Prepended_Concatenation_Mark", "pcm prependedconcatenationmark"),
  ("Quotation_Mark", "qmark quotationmark"), ("Radical", "radical"),
  ("Regional_Indicator", "regionalindicator ri"), ("Sentence_Break", "sb sentencebreak"),
  ("Script", "sc script"), ("Simple_Case_Folding", "scf sfc simplecasefolding"),
  ("Script_Extensions", "scriptextensions scx"), ("Soft_Dotted", "sd softdotted"),
  ("Sentence_Terminal", "sentenceterminal sterm"),
  ("Simple_Lowercase_Mapping", "simplelowercasemapping slc"),
  ("Simple_Titlecase_Mapping", "simpletitlecasemapping stc"),
  ("Simple_Uppercase_Mapping", "simpleuppercasemapping suc"),
  ("White_Space", "space whitespace wspace"), ("Titlecase_Mapping", "tc titlecasemapping"),
  ("Terminal_Punctuation", "term terminalpunctuation"),
  ("Uppercase_Mapping", "uc uppercasemapping"), ("Unified_Ideograph", "uideo unifiedideograph"),
  ("Uppercase", "upper uppercase"), ("Variation_Selector", "variationselector vs"),
  ("Vertical_Orientation", "verticalorientation vo"), ("Word_Break", "wb wordbreak"),
  ("XID_Continue", "xidc xidcontinue"), ("XID_Start", "xids xidstart")]

/-- Names of general categories. -/
def categoryAliases : List (String × String) := [
  ("Other", "c other"), ("Cased_Letter", "casedletter lc"), ("Control", "cc cntrl control"),
  ("Format", "cf format"), ("Close_Punctuation", "closepunctuation pe"),
  ("Unassigned", "cn unassigned"), ("Private_Use", "co privateuse"),
  ("Mark", "combiningmark m mark"), ("Connector_Punctuation", "connectorpunctuation pc"),
  ("Surrogate", "cs surrogate"), ("Currency_Symbol", "currencysymbol sc"),
  ("Dash_Punctuation", "dashpunctuation pd"), ("Decimal_Number", "decimalnumber digit nd"),
  ("Enclosing_Mark", "enclosingmark me"), ("Final_Punctuation", "finalpunctuation pf"),
  ("Initial_Punctuation", "initialpunctuation pi"), ("Letter", "l letter"),
  ("Letter_Number", "letternumber nl"), ("Line_Separator", "lineseparator zl"),
  ("Lowercase_Letter", "ll lowercaseletter"), ("Modifier_Letter", "lm modifierletter"),
  ("Other_Letter", "lo otherletter"), ("Titlecase_Letter", "lt titlecaseletter"),
  ("Uppercase_Letter", "lu uppercaseletter"), ("Math_Symbol", "mathsymbol sm"),
  ("Spacing_Mark", "mc spacingmark"), ("Nonspacing_Mark", "mn nonspacingmark"),
  ("Modifier_Symbol", "modifiersymbol sk"), ("Number", "n number"),
  ("Other_Number", "no othernumber"), ("Open_Punctuation", "openpunctuation ps"),
  ("Other_Punctuation", "otherpunctuation po"), ("Other_Symbol", "othersymbol so"),
  ("Punctuation", "p punct punctuation"), ("Paragraph_Separator", "paragraphseparator zp"),
  ("Symbol", "s symbol"), ("Separator", "separator z"), ("Space_Separator", "spaceseparator zs")]

/-- Names of scripts. -/
def scriptAliases : List (String × String) := [
  ("Adlam", "adlam adlm"), ("Caucasian_Albanian", "aghb caucasianalbanian"), ("Ahom", "ahom"),
  ("Anatolian_Hieroglyphs", "anatolianhieroglyphs hluw"), ("Arabic", "arab arabic"),
  ("Armenian", "armenian armn"), ("Imperial_Aramaic", "armi imperialaramaic"),
  ("Avestan", "avestan avst"), ("Balinese", "bali balinese"), ("Bamum", "bamu bamum"),
  ("Bassa_Vah", "bass bassavah"), ("Batak", "batak batk"), ("Bengali", "beng bengali"),
  ("Bhaiksuki", "bhaiksuki bhks"), ("Bopomofo", "bopo bopomofo"), ("Brahmi", "brah brahmi"),
  ("Braille", "brai braille"), ("Buginese", "bugi buginese"), ("Buhid", "buhd buhid"),
  ("Chakma", "cakm chakma"), ("Canadian_Aboriginal", "canadianaboriginal cans"),
  ("Carian", "cari carian"), ("Cham", "cham"), ("Cherokee", "cher cherokee"),
  ("Chorasmian", "chorasmian chrs"), ("Common", "common zyyy"), ("Coptic", "copt coptic qaac"),
  ("Cypro_Minoan", "cpmn cyprominoan"), ("Cypriot", "cprt cypriot"),
  ("Cuneiform", "cuneiform xsux"), ("Cyrillic", "cyrillic cyrl"), ("Deseret", "deseret dsrt"),
  ("Devanagari", "deva devanagari"), ("Dives_Akuru", "diak divesakuru"), ("Dogra", "dogr dogra"),
  ("Duployan", "dupl duployan"), ("Egyptian_Hieroglyphs", "egyp egyptianhieroglyphs"),
  ("Elbasan", "elba elbasan"), ("Elymaic", "elym elymaic"), ("Ethiopic", "ethi ethiopic"),
  ("Garay", "gara garay"), ("Georgian", "geor georgian"), ("Glagolitic", "glag glagolitic"),
  ("Gunjala_Gondi", "gong gunjalagondi"), ("Masaram_Gondi", "gonm masaramgondi"),
  ("Gothic", "goth gothic"), ("Grantha", "gran grantha"), ("Greek", "greek grek"),
  ("Gujarati", "gujarati gujr"), ("Gurung_Khema", "gukh gurungkhema"),
  ("Gurmukhi", "gurmukhi guru"), ("Han", "han hani"), ("Hangul", "hang hangul"),
  ("Hanifi_Rohingya", "hanifirohingya rohg"), ("Hanunoo", "hano hanunoo"),
  ("Hatran", "hatr hatran"), ("Hebrew", "hebr hebrew"), ("Hiragana", "hira hiragana"),
  ("Pahawh_Hmong", "hmng pahawhhmong"), ("Nyiakeng_Puachue_Hmong", "hmnp nyiakengpuachuehmong"),
  ("Katakana_Or_Hiragana", "hrkt katakanaorhiragana"), ("Old_Hungarian", "hung oldhungarian"),
  ("Inherited", "inherited qaai zinh"), ("Inscriptional_Pahlavi", "inscriptionalpahlavi phli"),
  ("Inscriptional_Parthian", "inscriptionalparthian prti"), ("Old_Italic", "ital olditalic"),
  ("Javanese", "java javanese"), ("Kaithi", "kaithi kthi"), ("Kayah_Li", "kali kayahli"),
  ("Katakana", "kana katakana"), ("Kannada", "kannada knda"), ("Kawi", "kawi"),
  ("Kharoshthi", "khar kharoshthi"), ("Khitan_Small_Script", "khitansmallscript kits"),
  ("Khmer", "khmer khmr"), ("Khojki", "khoj khojki"), ("Khudawadi", "khudawadi sind"),
  ("Kirat_Rai", "kiratrai krai"), ("Tai_Tham", "lana taitham"), ("Lao", "lao laoo"),
  ("Latin", "latin latn"), ("Lepcha", "lepc lepcha"), ("Limbu", "limb limbu"),
  ("Linear_A", "lina lineara"), ("Linear_B", "linb linearb"), ("Lisu", "lisu"),
  ("Lycian", "lyci lycian"), ("Lydian", "lydi lydian"), ("Mahajani", "mahajani mahj"),
  ("Makasar", "maka makasar"), ("Malayalam", "malayalam mlym"), ("Mandaic", "mand mandaic"),
  ("Manichaean", "mani manichaean"), ("Marchen", "marc marchen"),
  ("Medefaidrin", "medefaidrin medf"), ("Meetei_Mayek", "meeteimayek mtei"),
  ("Mende_Kikakui", "mend mendekikakui"), ("Meroitic_Cursive", "merc meroiticcursive"),
  ("Meroitic_Hieroglyphs", "mero meroitichieroglyphs"), ("Miao", "miao plrd"), ("Modi", "modi"),
  ("Mongolian", "mong mongolian"), ("Mro", "mro mroo"), ("Multani", "mult multani"),
  ("Myanmar", "myanmar mymr"), ("Nabataean", "nabataean nbat"),
  ("Nag_Mundari", "nagm nagmundari"), ("Nandinagari", "nand nandinagari"),
  ("Old_North_Arabian", "narb oldnortharabian"), ("Newa", "newa"),
  ("New_Tai_Lue", "newtailue talu"), ("Nko", "nko nkoo"), ("Nushu", "nshu nushu"),
  ("Ogham", "ogam ogham"), ("Ol_Chiki", "olchiki olck"), ("Old_Permic", "oldpermic perm"),
  ("Old_Persian", "oldpersian xpeo"), ("Old_Sogdian", "oldsogdian sogo"),
  ("Old_South_Arabian", "oldsoutharabian sarb"), ("Old_Turkic", "oldturkic orkh"),
  ("Old_Uyghur", "olduyghur ougr"), ("Ol_Onal", "olonal onao"), ("Oriya", "oriya orya"),
  ("Osage", "osage osge"), ("Osmanya", "osma osmanya"), ("Palmyrene", "palm palmyrene"),
  ("Pau_Cin_Hau", "pauc paucinhau"), ("Phags_Pa", "phag phagspa"),
  ("Psalter_Pahlavi", "phlp psalterpahlavi"), ("Phoenician", "phnx phoenician"),
  ("Rejang", "rejang rjng"), ("Runic", "runic runr"), ("Samaritan", "samaritan samr"),
  ("Saurashtra", "saur saurashtra"), ("SignWriting", "sgnw signwriting"),
  ("Sharada", "sharada shrd"), ("Shavian", "shavian shaw"), ("Siddham", "sidd siddham"),
  ("Sinhala", "sinh sinhala"), ("Sogdian", "sogd sogdian"), ("Sora_Sompeng", "sora sorasompeng"),
  ("Soyombo", "soyo soyombo"), ("Sundanese", "sund sundanese"), ("Sunuwar", "sunu sunuwar"),
  ("Syloti_Nagri", "sylo sylotinagri"), ("Syriac", "syrc syriac"), ("Tagalog", "tagalog tglg"),
  ("Tagbanwa", "tagb tagbanwa"), ("Tai_Le", "taile tale"), ("Tai_Viet", "taiviet tavt"),
  ("Takri", "takr takri"), ("Tamil", "tamil taml"), ("Tangut", "tang tangut"),
  ("Tangsa", "tangsa tnsa"), ("Telugu", "telu telugu"), ("Tifinagh", "tfng tifinagh"),
  ("Thaana", "thaa thaana"), ("Thai", "thai"), ("Tibetan", "tibetan tibt"),
  ("Tirhuta", "tirh tirhuta"), ("Todhri", "todhri todr"), ("Toto", "toto"),
  ("Tulu_Tigalari", "tulutigalari tutg"), ("Ugaritic", "ugar ugaritic"),
  ("Unknown", "unknown zzzz"), ("Vai", "vai vaii"), ("Vithkuqi", "vith vithkuqi"),
  ("Wancho", "wancho wcho"), ("Warang_Citi", "wara warangciti"), ("Yezidi", "yezi yezidi"),
  ("Yi", "yi yiii"), ("Zanabazar_Square", "zanabazarsquare zanb")]

/-- Names of ages. -/
def ageAliases : List (String × String) := [
  ("V1_1", "1.1 v11"), ("V10_0", "10.0 v100"), ("V11_0", "11.0 v110"), ("V12_0", "12.0 v120"),
  ("V12_1", "12.1 v121"), ("V13_0", "13.0 v130"), ("V14_0", "14.0 v140"), ("V15_0", "15.0 v150"),
  ("V15_1", "15.1 v151"), ("V16_0", "16.0 v160"), ("V2_0", "2.0 v20"), ("V2_1", "2.1 v21"),
  ("V3_0", "3.0 v30"), ("V3_1", "3.1 v31"), ("V3_2", "3.2 v32"), ("V4_0", "4.0 v40"),
  ("V4_1", "4.1 v41"), ("V5_0", "5.0 v50"), ("V5_1", "5.1 v51"), ("V5_2", "5.2 v52"),
  ("V6_0", "6.0 v60"), ("V6_1", "6.1 v61"), ("V6_2", "6.2 v62"), ("V6_3", "6.3 v63"),
  ("V7_0", "7.0 v70"), ("V8_0", "8.0 v80"), ("V9_0", "9.0 v90"), ("Unassigned", "na unassigned")]

/-- Names of the classes of grapheme cluster boundaries. -/
def graphemeAliases : List (String × String) := [
  ("Control", "cn control"), ("CR", "cr"), ("E_Base", "eb ebase"),
  ("E_Base_GAZ", "ebasegaz ebg"), ("E_Modifier", "em emodifier"), ("Extend", "ex extend"),
  ("Glue_After_Zwj", "gaz glueafterzwj"), ("L", "l"), ("LF", "lf"), ("LV", "lv"), ("LVT", "lvt"),
  ("Other", "other xx"), ("Prepend", "pp prepend"),
  ("Regional_Indicator", "regionalindicator ri"), ("SpacingMark", "sm spacingmark"), ("T", "t"),
  ("V", "v"), ("ZWJ", "zwj")]

/-- Names of the classes of word boundaries. -/
def wordAliases : List (String × String) := [
  ("ALetter", "aletter le"), ("CR", "cr"), ("Double_Quote", "doublequote dq"),
  ("E_Base", "eb ebase"), ("E_Base_GAZ", "ebasegaz ebg"), ("E_Modifier", "em emodifier"),
  ("ExtendNumLet", "ex extendnumlet"), ("Extend", "extend"), ("Format", "fo format"),
  ("Glue_After_Zwj", "gaz glueafterzwj"), ("Hebrew_Letter", "hebrewletter hl"),
  ("Katakana", "ka katakana"), ("LF", "lf"), ("MidNumLet", "mb midnumlet"),
  ("MidLetter", "midletter ml"), ("MidNum", "midnum mn"), ("Newline", "newline nl"),
  ("Numeric", "nu numeric"), ("Other", "other xx"),
  ("Regional_Indicator", "regionalindicator ri"), ("Single_Quote", "singlequote sq"),
  ("WSegSpace", "wsegspace"), ("ZWJ", "zwj")]

/-- Names of the classes of sentence boundaries. -/
def sentenceAliases : List (String × String) := [
  ("ATerm", "at aterm"), ("Close", "cl close"), ("CR", "cr"), ("Extend", "ex extend"),
  ("Format", "fo format"), ("OLetter", "le oletter"), ("LF", "lf"), ("Lower", "lo lower"),
  ("Numeric", "nu numeric"), ("Other", "other xx"), ("SContinue", "sc scontinue"),
  ("Sep", "se sep"), ("Sp", "sp"), ("STerm", "st sterm"), ("Upper", "up upper")]

end Unicode

end Feel
