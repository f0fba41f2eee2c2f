import PathRouting.Unicode.Runs

/-! The script of every code point, the characters that a script borrows from or lends to
others by the property Script_Extensions, and the names of the scripts. -/

namespace PathRouting.Unicode

/-- The run-length table of scripts, by their four-letter codes. -/
def scriptLines : List String := [
  "Zyyy65Latn26Zyyy6Latn26Zyyy47LatnZyyy15LatnZyyy5Latn23ZyyyLatn31ZyyyLatn449Zyyy39Latn5Zyyy5",
  "Bopo2Zyyy20Zinh112Grek4ZyyyGrek3Zzzz2Grek4ZyyyGrekZzzz4GrekZyyyGrekZyyyGrek3ZzzzGrekZzzz",
  "Grek20ZzzzGrek63Copt14Grek16Cyrl133Zinh2Cyrl169ZzzzArmn38Zzzz2Armn50Zzzz2Armn3ZzzzHebr55",
  "Zzzz8Hebr27Zzzz4Hebr6Zzzz11Arab5ZyyyArab6ZyyyArab14ZyyyArab3ZyyyArab32ZyyyArab10Zinh11Arab26",
  "ZinhArab108ZyyyArab34Syrc14ZzzzSyrc60Zzzz2Syrc3Arab48Thaa50Zzzz14Nkoo59Zzzz2Nkoo3Samr46Zzzz2",
  "Samr15ZzzzMand28Zzzz2MandZzzzSyrc11Zzzz5Arab34Zzzz5Arab75ZyyyArab29Deva81Zinh4Deva15Zyyy2",
  "Deva26Beng4ZzzzBeng8Zzzz2Beng2Zzzz2Beng22ZzzzBeng7ZzzzBengZzzz3Beng4Zzzz2Beng9Zzzz2Beng2",
  "Zzzz2Beng4Zzzz8BengZzzz4Beng2ZzzzBeng5Zzzz2Beng25Zzzz2Guru3ZzzzGuru6Zzzz4Guru2Zzzz2Guru22",
  "ZzzzGuru7ZzzzGuru2ZzzzGuru2ZzzzGuru2Zzzz2GuruZzzzGuru5Zzzz4Guru2Zzzz2Guru3Zzzz3GuruZzzz7",
  "Guru4ZzzzGuruZzzz7Guru17Zzzz10Gujr3ZzzzGujr9ZzzzGujr3ZzzzGujr22ZzzzGujr7ZzzzGujr2ZzzzGujr5",
  "Zzzz2Gujr10ZzzzGujr3ZzzzGujr3Zzzz2GujrZzzz15Gujr4Zzzz2Gujr12Zzzz7Gujr7ZzzzOrya3ZzzzOrya8",
  "Zzzz2Orya2Zzzz2Orya22ZzzzOrya7ZzzzOrya2ZzzzOrya5Zzzz2Orya9Zzzz2Orya2Zzzz2Orya3Zzzz7Orya3",
  "Zzzz4Orya2ZzzzOrya5Zzzz2Orya18Zzzz10Taml2ZzzzTaml6Zzzz3Taml3ZzzzTaml4Zzzz3Taml2ZzzzTamlZzzz",
  "Taml2Zzzz3Taml2Zzzz3Taml3Zzzz3Taml12Zzzz4Taml5Zzzz3Taml3ZzzzTaml4Zzzz2TamlZzzz6TamlZzzz14",
  "Taml21Zzzz5Telu13ZzzzTelu3ZzzzTelu23ZzzzTelu16Zzzz2Telu9ZzzzTelu3ZzzzTelu4Zzzz7Telu2Zzzz",
  "Telu3ZzzzTelu2Zzzz2Telu4Zzzz2Telu10Zzzz7Telu9Knda13ZzzzKnda3ZzzzKnda23ZzzzKnda10ZzzzKnda5",
  "Zzzz2Knda9ZzzzKnda3ZzzzKnda4Zzzz7Knda2Zzzz5Knda3ZzzzKnda4Zzzz2Knda10ZzzzKnda3Zzzz12Mlym13",
  "ZzzzMlym3ZzzzMlym51ZzzzMlym3ZzzzMlym6Zzzz4Mlym16Zzzz2Mlym26ZzzzSinh3ZzzzSinh18Zzzz3Sinh24",
  "ZzzzSinh9ZzzzSinhZzzz2Sinh7Zzzz3SinhZzzz4Sinh6ZzzzSinhZzzzSinh8Zzzz6Sinh10Zzzz2Sinh3Zzzz12",
  "Thai58Zzzz4ZyyyThai28Zzzz37Laoo2ZzzzLaooZzzzLaoo5ZzzzLaoo24ZzzzLaooZzzzLaoo23Zzzz2Laoo5Zzzz",
  "LaooZzzzLaoo7ZzzzLaoo10Zzzz2Laoo4Zzzz32Tibt72ZzzzTibt36Zzzz4Tibt39ZzzzTibt36ZzzzTibt15Zzzz",
  "Tibt7Zyyy4Tibt2Zzzz37Mymr160Geor38ZzzzGeorZzzz5GeorZzzz2Geor43ZyyyGeor4Hang256Ethi73Zzzz",
  "Ethi4Zzzz2Ethi7ZzzzEthiZzzzEthi4Zzzz2Ethi41ZzzzEthi4Zzzz2Ethi33ZzzzEthi4Zzzz2Ethi7ZzzzEthi",
  "ZzzzEthi4Zzzz2Ethi15ZzzzEthi57ZzzzEthi4Zzzz2Ethi67Zzzz2Ethi32Zzzz3Ethi26Zzzz6Cher86Zzzz2",
  "Cher6Zzzz2Cans640Ogam29Zzzz3Runr75Zyyy3Runr11Zzzz7Tglg22Zzzz9TglgHano21Zyyy2Zzzz9Buhd20",
  "Zzzz12Tagb13ZzzzTagb3ZzzzTagb2Zzzz12Khmr94Zzzz2Khmr10Zzzz6Khmr10Zzzz6Mong2Zyyy2MongZyyy",
  "Mong20Zzzz6Mong89Zzzz7Mong43Zzzz5Cans70Zzzz10Limb31ZzzzLimb12Zzzz4Limb12Zzzz4LimbZzzz3Limb12",
  "Tale30Zzzz2Tale5Zzzz11Talu44Zzzz4Talu26Zzzz6Talu11Zzzz3Talu2Khmr32Bugi28Zzzz2Bugi2Lana63Zzzz",
  "Lana29Zzzz2Lana11Zzzz6Lana10Zzzz6Lana14Zzzz2Zinh46Zzzz2Zinh12Zzzz20Bali77ZzzzBali50Sund64",
  "Batk52Zzzz8Batk4Lepc56Zzzz3Lepc15Zzzz3Lepc3Olck48Cyrl11Zzzz5Geor43Zzzz2Geor3Sund8Zzzz8Zinh3",
  "ZyyyZinh13ZyyyZinh7Zyyy4ZinhZyyy6ZinhZyyy3Zinh2ZyyyZzzz5Latn38Grek5CyrlLatn49Grek5Latn4Grek5",
  "Latn13CyrlLatn70GrekZinh64Latn256Grek22Zzzz2Grek6Zzzz2Grek38Zzzz2Grek6Zzzz2Grek8ZzzzGrekZzzz",
  "GrekZzzzGrekZzzzGrek31Zzzz2Grek53ZzzzGrek15ZzzzGrek14Zzzz2Grek6ZzzzGrek19Zzzz2Grek3ZzzzGrek9",
  "ZzzzZyyy12Zinh2Zyyy87ZzzzZyyy11LatnZzzz2Zyyy11LatnZyyy15ZzzzLatn13Zzzz3Zyyy34Zzzz14Zinh33",
  "Zzzz15Zyyy38GrekZyyy3Latn2Zyyy6LatnZyyy27LatnZyyy17Latn41Zyyy3Zzzz4Zyyy666Zzzz22Zyyy11Zzzz21",
  "Zyyy928Brai256Zyyy628Zzzz2Zyyy138Glag96Latn32Copt116Zzzz5Copt7Geor38ZzzzGeorZzzz5GeorZzzz2",
  "Tfng56Zzzz7Tfng2Zzzz14TfngEthi23Zzzz9Ethi7ZzzzEthi7ZzzzEthi7ZzzzEthi7ZzzzEthi7ZzzzEthi7Zzzz",
  "Ethi7ZzzzEthi7ZzzzCyrl32Zyyy94Zzzz34Hani26ZzzzHani89Zzzz12Hani214Zzzz26Zyyy21HaniZyyyHani",
  "Zyyy25Hani9Zinh4Hang2Zyyy8Hani4Zyyy4ZzzzHira86Zzzz2Zinh2Zyyy2Hira3ZyyyKana90Zyyy2Kana3Zzzz5",
  "Bopo43ZzzzHang94ZzzzZyyy16Bopo32Zyyy38Zzzz9ZyyyKana16Hang31ZzzzZyyy64Hang31Zyyy81Kana47Zyyy",
  "Kana88Zyyy168Hani6592Zyyy64Hani20992Yiii1165Zzzz3Yiii55Zzzz9Lisu48Vaii300Zzzz20Cyrl96Bamu88",
  "Zzzz8Zyyy34Latn102Zyyy3Latn82Zzzz20Latn15Sylo45Zzzz3Zyyy10Zzzz6Phag56Zzzz8Saur70Zzzz8Saur12",
  "Zzzz6Deva32Kali46ZyyyKaliRjng36Zzzz11RjngHang29Zzzz3Java78ZzzzZyyyJava10Zzzz4Java2Mymr31Zzzz",
  "Cham55Zzzz9Cham14Zzzz2Cham10Zzzz2Cham4Mymr32Tavt67Zzzz24Tavt5Mtei23Zzzz10Ethi6Zzzz2Ethi6",
  "Zzzz2Ethi6Zzzz9Ethi7ZzzzEthi7ZzzzLatn43ZyyyLatn9GrekLatn4Zyyy2Zzzz4Cher80Mtei46Zzzz2Mtei10",
  "Zzzz6Hang11172Zzzz12Hang23Zzzz4Hang49Zzzz8452Hani366Zzzz2Hani106Zzzz38Latn7Zzzz12Armn5Zzzz5",
  "Hebr26ZzzzHebr5ZzzzHebrZzzzHebr2ZzzzHebr2ZzzzHebr10Arab494Zyyy2Arab144Zzzz32Arab16Zinh16",
  "Zyyy10Zzzz6Zinh14Cyrl2Zyyy35ZzzzZyyy19ZzzzZyyy4Zzzz4Arab5ZzzzArab135Zzzz2ZyyyZzzzZyyy32",
  "Latn26Zyyy6Latn26Zyyy11Kana10ZyyyKana45Zyyy2Hang31Zzzz3Hang6Zzzz2Hang6Zzzz2Hang6Zzzz2Hang3",
  "Zzzz3Zyyy7ZzzzZyyy7Zzzz10Zyyy5Zzzz2Linb12ZzzzLinb26ZzzzLinb19ZzzzLinb2ZzzzLinb15Zzzz2Linb14",
  "Zzzz34Linb123Zzzz5Zyyy3Zzzz4Zyyy45Zzzz3Zyyy9Grek79ZzzzZyyy13Zzzz3GrekZzzz47Zyyy45ZinhZzzz130",
  "Lyci29Zzzz3Cari49Zzzz15ZinhZyyy27Zzzz4Ital36Zzzz9Ital3Goth27Zzzz5Perm43Zzzz5Ugar30ZzzzUgar",
  "Xpeo36Zzzz4Xpeo14Zzzz42Dsrt80Shaw48Osma30Zzzz2Osma10Zzzz6Osge36Zzzz4Osge36Zzzz4Elba40Zzzz8",
  "Aghb52Zzzz11AghbVith11ZzzzVith15ZzzzVith7ZzzzVith2ZzzzVith11ZzzzVith15ZzzzVith7ZzzzVith2",
  "Zzzz3Todr52Zzzz12Lina311Zzzz9Lina22Zzzz10Lina8Zzzz24Latn6ZzzzLatn42ZzzzLatn9Zzzz69Cprt6Zzzz2",
  "CprtZzzzCprt44ZzzzCprt2Zzzz3CprtZzzz2CprtArmi22ZzzzArmi9Palm32Nbat31Zzzz8Nbat9Zzzz48Hatr19",
  "ZzzzHatr2Zzzz5Hatr5Phnx28Zzzz3PhnxLydi26Zzzz5LydiSidt26Zzzz38Mero32Merc24Zzzz4Merc20Zzzz2",
  "Merc46Khar4ZzzzKhar2Zzzz5Khar8ZzzzKhar3ZzzzKhar29Zzzz2Khar3Zzzz4Khar10Zzzz7Khar9Zzzz7Sarb32",
  "Narb32Zzzz32Mani39Zzzz4Mani12Zzzz9Avst54Zzzz3Avst7Prti22Zzzz2Prti8Phli19Zzzz5Phli8Phlp18",
  "Zzzz7Phlp4Zzzz12Phlp7Zzzz80Orkh73Zzzz55Hung51Zzzz13Hung51Zzzz7Hung6Rohg40Zzzz8Rohg10Zzzz6",
  "Gara38Zzzz3Gara29Zzzz8Gara2Zzzz208Arab31ZzzzYezi42ZzzzYezi3Zzzz2Yezi2Zzzz16Arab6Zzzz8Arab9",
  "Zzzz33Arab6Sogo40Zzzz8Sogd42Zzzz22Ougr26Zzzz38Chrs28Zzzz20Elym23Zzzz9Brah78Zzzz4Brah36Zzzz9",
  "BrahKthi67Zzzz10KthiZzzz2Sora25Zzzz7Sora10Zzzz6Cakm53ZzzzCakm18Zzzz8Mahj39Zzzz9Shrd96Zzzz",
  "Sinh20Zzzz11Khoj18ZzzzKhoj47Zzzz62Mult7ZzzzMultZzzzMult4ZzzzMult15ZzzzMult11Zzzz6Sind59Zzzz5",
  "Sind10Zzzz6Gran4ZzzzGran8Zzzz2Gran2Zzzz2Gran22ZzzzGran7ZzzzGran2ZzzzGran5ZzzzZinhGran9Zzzz2",
  "Gran2Zzzz2Gran3Zzzz2GranZzzz6GranZzzz5Gran7Zzzz2Gran7Zzzz3Gran5Zzzz11Tutg10ZzzzTutgZzzz2Tutg",
  "ZzzzTutg38ZzzzTutg10ZzzzTutgZzzz2TutgZzzzTutg4ZzzzTutg10ZzzzTutg2Zzzz8Tutg2Zzzz29Newa92Zzzz",
  "Newa5Zzzz30Tirh72Zzzz8Tirh10Zzzz166Sidd54Zzzz2Sidd38Zzzz34Modi69Zzzz11Modi10Zzzz6Mong13",
  "Zzzz19Takr58Zzzz6Takr10Zzzz6Mymr20Zzzz28Ahom27Zzzz2Ahom15Zzzz4Ahom23Zzzz185Dogr60Zzzz100",
  "Wara83Zzzz12WaraDiak7Zzzz2DiakZzzz2Diak8ZzzzDiak2ZzzzDiak30ZzzzDiak2Zzzz2Diak12Zzzz9Diak10",
  "Zzzz70Nand8Zzzz2Nand46Zzzz2Nand11Zzzz27Zanb72Zzzz8Soyo83Zzzz13Cans16Pauc57Zzzz7Deva10Zzzz86",
  "Shrd8Zzzz88Sunu34Zzzz14Sunu10Zzzz6Bhks9ZzzzBhks45ZzzzBhks14Zzzz10Bhks29Zzzz3Marc32Zzzz2",
  "Marc22ZzzzMarc14Zzzz73Gonm7ZzzzGonm2ZzzzGonm44Zzzz3GonmZzzzGonm2ZzzzGonm9Zzzz8Gonm10Zzzz6",
  "Gong6ZzzzGong2ZzzzGong37ZzzzGong2ZzzzGong6Zzzz7Gong10Zzzz6Tols44Zzzz4Tols10Zzzz246Maka25",
  "Zzzz7Kawi17ZzzzKawi41Zzzz3Kawi29Zzzz85LisuZzzz15Taml50Zzzz13TamlXsux922Zzzz102Xsux111Zzzz",
  "Xsux5Zzzz11Xsux196Zzzz2636Cpmn99Zzzz13Egyp1110Zzzz10Egyp3995Zzzz5Hluw583Zzzz6841Gukh58",
  "Zzzz1734Bamu569Zzzz7Mroo31ZzzzMroo10Zzzz4Mroo2Tnsa79ZzzzTnsa10Zzzz6Bass30Zzzz2Bass6Zzzz10",
  "Hmng70Zzzz10Hmng10ZzzzHmng7ZzzzHmng21Zzzz5Hmng19Zzzz432Krai58Zzzz198Medf91Zzzz5Berf25Zzzz2",
  "Berf25Zzzz44Plrd75Zzzz4Plrd57Zzzz7Plrd17Zzzz64TangNshuHani2KitsZzzz11Hani7Zzzz9Tang6912",
  "Kits470Zzzz41KitsTang31Zzzz97Tang115Zzzz8701Kana4ZzzzKana7ZzzzKana2ZzzzKanaHira287Kana3",
  "Zzzz15HiraZzzz29Hira3Zzzz2KanaZzzz14Kana4Zzzz8Nshu396Zzzz2308Dupl107Zzzz5Dupl13Zzzz3Dupl9",
  "Zzzz7Dupl10Zzzz2Dupl4Zyyy4Zzzz3932Zyyy253Zzzz3Zyyy436Zzzz6Zyyy23Zzzz15Zyyy17Zzzz15Zinh46",
  "Zzzz2Zinh23Zzzz9Zyyy116Zzzz60Zyyy246Zzzz10Zyyy39Zzzz2Zyyy62Zinh3Zyyy17Zinh8Zyyy2Zinh7Zyyy30",
  "Zinh4Zyyy61Zzzz21Grek70Zzzz122Zyyy20Zzzz12Zyyy20Zzzz12Zyyy87Zzzz9Zyyy25Zzzz135Zyyy85Zzzz",
  "Zyyy71ZzzzZyyy2Zzzz2ZyyyZzzz2Zyyy2Zzzz2Zyyy4ZzzzZyyy12ZzzzZyyyZzzzZyyy7ZzzzZyyy65ZzzzZyyy4",
  "Zzzz2Zyyy8ZzzzZyyy7ZzzzZyyy28ZzzzZyyy4ZzzzZyyy5ZzzzZyyyZzzz3Zyyy7ZzzzZyyy340Zzzz2Zyyy292",
  "Zzzz2Zyyy50Sgnw652Zzzz15Sgnw5ZzzzSgnw15Zzzz1104Latn31Zzzz6Latn6Zzzz213Glag7ZzzzGlag17Zzzz2",
  "Glag7ZzzzGlag2ZzzzGlag5Zzzz5Cyrl62Zzzz33CyrlZzzz112Hmnp45Zzzz3Hmnp14Zzzz2Hmnp10Zzzz4Hmnp2",
  "Zzzz320Toto31Zzzz17Wcho58Zzzz5WchoZzzz464Nagm42Zzzz214Onao43Zzzz4OnaoZzzz192Tayo31ZzzzTayo22",
  "Zzzz8Tayo2Zzzz224Ethi7ZzzzEthi4ZzzzEthi2ZzzzEthi15ZzzzMend197Zzzz2Mend16Zzzz41Adlm76Zzzz4",
  "Adlm10Zzzz4Adlm2Zzzz785Zyyy68Zzzz76Zyyy61Zzzz194Arab4ZzzzArab27ZzzzArab2ZzzzArabZzzz2Arab",
  "ZzzzArab10ZzzzArab4ZzzzArabZzzzArabZzzz6ArabZzzz4ArabZzzzArabZzzzArabZzzzArab3ZzzzArab2Zzzz",
  "ArabZzzz2ArabZzzzArabZzzzArabZzzzArabZzzzArabZzzzArab2ZzzzArabZzzz2Arab4ZzzzArab7ZzzzArab4",
  "ZzzzArab4ZzzzArabZzzzArab10ZzzzArab17Zzzz5Arab3ZzzzArab5ZzzzArab17Zzzz52Arab2Zzzz270Zyyy44",
  "Zzzz4Zyyy100Zzzz12Zyyy15Zzzz2Zyyy15ZzzzZyyy15ZzzzZyyy37Zzzz10Zyyy174Zzzz56Zyyy26HiraZyyy2",
  "Zzzz13Zyyy44Zzzz4Zyyy9Zzzz7Zyyy2Zzzz14Zyyy6Zzzz154Zyyy985Zzzz3Zyyy17Zzzz3Zyyy13Zzzz3Zyyy218",
  "Zzzz6Zyyy12Zzzz4ZyyyZzzz15Zyyy12Zzzz4Zyyy56Zzzz8Zyyy10Zzzz6Zyyy40Zzzz8Zyyy30Zzzz2Zyyy12Zzzz4",
  "Zyyy2Zzzz14Zyyy9Zzzz39Zyyy344Zzzz8Zyyy14Zzzz2Zyyy13Zzzz3Zyyy11Zzzz3Zyyy57ZzzzZyyyZzzz4Zyyy16",
  "Zzzz2Zyyy12Zzzz4Zyyy10Zzzz7Zyyy147ZzzzZyyy103Zzzz1029Hani42720Zzzz32Hani4382Zzzz2Hani5774",
  "Zzzz2Hani7473Zzzz15Hani622Zzzz2466Hani542Zzzz1506Hani4939Zzzz5Hani8490Zzzz707463ZyyyZzzz30",
  "Zyyy96Zzzz128Zinh240Zzzz196112"]

def scriptRuns : Runs := Runs.read scriptLines

def script (c : Char) : String := scriptRuns.tagOf c.toNat

/-- For each script whose extended set differs from its own characters: its code, the
characters gained and the characters lost. -/
def scriptExtensionTable : List (String × List String × List String) := [
  ("Adlm",
    ["61F 640 204F 2E41"],
    []),
  ("Aghb",
    ["304 331 35E"],
    []),
  ("Arab",
    ["60C 61B 61F 640 64B-655 670 204F 2E41 FD3E-FD3F 102E0-102FB"],
    []),
  ("Armn",
    ["308"],
    []),
  ("Avst",
    ["B7 2E30-2E31"],
    []),
  ("Beng",
    ["2BC 951-952 964-965 1CD0 1CD2 1CD5-1CD6 1CD8 1CE1 1CEA 1CED 1CF2 1CF5-1CF7 A8F1"],
    []),
  ("Bopo",
    ["2C7 2C9-2CB 2D9 3001-3003 3008-3011 3013-301F 302A-302D 3030 3037 30FB FE45-FE46",
      "FF61-FF65"],
    []),
  ("Bugi",
    ["A9CF"],
    []),
  ("Buhd",
    ["1735-1736"],
    []),
  ("Cakm",
    ["9E6-9EF 1040-1049"],
    []),
  ("Cari",
    ["B7 205A 205D 2E31"],
    []),
  ("Cher",
    ["300-302 304 30B-30C 323-324 330-331"],
    []),
  ("Copt",
    ["B7 300 304-305 307 374-375 2E17 102E0-102FB"],
    []),
  ("Cpmn",
    ["10100-10101"],
    []),
  ("Cprt",
    ["10100-10102 10107-10133 10137-1013F"],
    []),
  ("Cyrl",
    ["2BC 300-302 304 306 308 30B 311 485-486 1DF8 2E43"],
    []),
  ("Deva",
    ["2BC 951-952 964-965 1CD0-1CF6 1CF8-1CF9 20F0 A830-A839"],
    []),
  ("Dogr",
    ["964-96F A830-A839"],
    []),
  ("Dupl",
    ["B7 307-308 30A 323-324 2E3C 1BCA0-1BCA3"],
    []),
  ("Elba",
    ["B7 305"],
    []),
  ("Ethi",
    ["30E"],
    []),
  ("Gara",
    ["60C 61B 61F"],
    []),
  ("Geor",
    ["B7 589 10FB 205A 2E31"],
    []),
  ("Glag",
    ["B7 303 305 484 487 589 10FB 205A 2E43 A66F"],
    []),
  ("Gong",
    ["B7 964-965"],
    []),
  ("Gonm",
    ["964-965"],
    []),
  ("Goth",
    ["B7 304-305 308 331"],
    []),
  ("Gran",
    ["951-952 964-965 BE6-BF3 1CD0 1CD2-1CD3 1CF2-1CF4 1CF8-1CF9 20F0 1133B 11FD0-11FD1",
      "11FD3"],
    []),
  ("Grek",
    ["B7 300-301 304 306 308 313 342 345 374 1DC0-1DC1 205D"],
    []),
  ("Gujr",
    ["951-952 964-965 A830-A839"],
    []),
  ("Gukh",
    ["965"],
    []),
  ("Guru",
    ["951-952 964-965 A830-A839"],
    []),
  ("Hang",
    ["3001-3003 3008-3011 3013-301F 3030 3037 30FB FE45-FE46 FF61-FF65"],
    []),
  ("Hani",
    ["B7 2FF0-2FFF 3001-3003 3006 3008-3011 3013-301F 302A-302D 3030 3037 303C-303F 30FB",
      "3190-319F 31C0-31E5 31EF 3220-3247 3280-32B0 32C0-32CB 32FF 3358-3370 337B-337F",
      "33E0-33FE A700-A707 FE45-FE46 FF61-FF65 1D360-1D371 1F250-1F251"],
    []),
  ("Hano",
    ["1735-1736"],
    []),
  ("Hebr",
    ["307-308"],
    []),
  ("Hira",
    ["3001-3003 3008-3011 3013-301F 3030-3035 3037 303C-303D 3099-309C 30A0 30FB-30FC",
      "FE45-FE46 FF61-FF65 FF70 FF9E-FF9F"],
    []),
  ("Hung",
    ["205A 205D 2E31 2E41"],
    []),
  ("Java",
    ["A9CF"],
    []),
  ("Kali",
    ["A92E"],
    []),
  ("Kana",
    ["305 323 3001-3003 3008-3011 3013-301F 3030-3035 3037 303C-303D 3099-309C 30A0",
      "30FB-30FC FE45-FE46 FF61-FF65 FF70 FF9E-FF9F"],
    []),
  ("Khoj",
    ["AE6-AEF A830-A839"],
    []),
  ("Knda",
    ["951-952 964-965 1CD0 1CD2-1CD3 1CDA 1CF2 1CF4 A830-A835"],
    []),
  ("Kthi",
    ["966-96F 2E31 A830-A839"],
    []),
  ("Latn",
    ["B7 2BC 2C7 2C9-2CB 2CD 2D7 2D9 300-30E 310-311 313 323-325 32D-32E 330-331 358 35E",
      "363-36F 485-486 951-952 10FB 1DF8 202F 20F0 2E17 A700-A707 A92E"],
    []),
  ("Limb",
    ["965"],
    []),
  ("Lina",
    ["10107-10133"],
    []),
  ("Linb",
    ["10100-10102 10107-10133 10137-1013F"],
    []),
  ("Lisu",
    ["2BC 2CD 300A-300B"],
    []),
  ("Lyci",
    ["205A"],
    []),
  ("Lydi",
    ["B7 2E31"],
    []),
  ("Mahj",
    ["B7 964-96F A830-A839"],
    []),
  ("Mand",
    ["640"],
    []),
  ("Mani",
    ["640"],
    []),
  ("Mero",
    ["205D"],
    []),
  ("Mlym",
    ["951-952 964-965 1CDA 1CF2 A830-A832"],
    []),
  ("Modi",
    ["A830-A839"],
    []),
  ("Mong",
    ["1802-1803 1805 202F 3001-3002 3008-300B"],
    []),
  ("Mult",
    ["A66-A6F"],
    []),
  ("Mymr",
    ["A92E"],
    []),
  ("Nand",
    ["951 964-965 CE6-CEF 1CE9 1CF2 1CFA A830-A835"],
    []),
  ("Newa",
    ["951-952 1CD5 1CD7-1CD8 1CE2 1CE9 1CEB 1CED"],
    []),
  ("Nkoo",
    ["60C 61B 61F FD3E-FD3F"],
    []),
  ("Onao",
    ["964-965"],
    []),
  ("Orkh",
    ["205A 2E30"],
    []),
  ("Orya",
    ["951-952 964-965 1CDA 1CF2"],
    []),
  ("Osge",
    ["301 304 30B 358"],
    []),
  ("Ougr",
    ["640 10AF2"],
    []),
  ("Perm",
    ["B7 300 306-308 313 483"],
    []),
  ("Phag",
    ["1802-1803 1805 202F 3002"],
    []),
  ("Phlp",
    ["640"],
    []),
  ("Rohg",
    ["60C 61B 61F 640 6D4"],
    []),
  ("Runr",
    ["16EB-16ED"],
    []),
  ("Samr",
    ["2E31"],
    []),
  ("Shaw",
    ["B7"],
    []),
  ("Shrd",
    ["951 1CD7 1CD9 1CDC-1CDD 1CE0 1CEA 1CED A830-A835 A838"],
    []),
  ("Sind",
    ["964-965 A830-A839"],
    []),
  ("Sinh",
    ["964-965 1CF2"],
    []),
  ("Sogd",
    ["640"],
    []),
  ("Sunu",
    ["300-301 303 30D 310 32D 331"],
    []),
  ("Sylo",
    ["964-965 9E6-9EF"],
    []),
  ("Syrc",
    ["303-304 307-308 30A 323-325 32D-32E 330-331 60C 61B-61C 61F 640 64B-655 670 1DF8",
      "1DFA"],
    []),
  ("Tagb",
    ["1735-1736"],
    []),
  ("Takr",
    ["964-965 A830-A839"],
    []),
  ("Tale",
    ["300-301 307-308 30C 1040-1049"],
    []),
  ("Taml",
    ["951-952 964-965 1CDA A8F3 11301 11303 1133B-1133C"],
    []),
  ("Tang",
    ["2FF0-2FFF 31EF"],
    []),
  ("Telu",
    ["951-952 964-965 1CD5-1CD6 1CD8 1CDA 1CF2"],
    []),
  ("Tfng",
    ["302 304 306-309 323"],
    []),
  ("Tglg",
    ["1735-1736"],
    []),
  ("Thaa",
    ["60C 61B-61C 61F 660-669 FDF2 FDFD"],
    []),
  ("Thai",
    ["2BC 2D7 303 331"],
    []),
  ("Tibt",
    ["3008-300B"],
    []),
  ("Tirh",
    ["951-952 964-965 1CD5 1CE2 1CF2 A830-A839"],
    []),
  ("Todr",
    ["301 304 307 311 313 35E"],
    []),
  ("Toto",
    ["2BC"],
    []),
  ("Tutg",
    ["CE6-CEF 1CF2 1CF4 A830-A835 A8F1"],
    []),
  ("Yezi",
    ["60C 61B 61F 660-669"],
    []),
  ("Yiii",
    ["3001-3002 3008-3011 3014-301B 30FB FF61-FF65"],
    []),
  ("Zinh",
    [],
    ["300-30E 310-311 313 323-325 32D-32E 330-331 342 345 358 35E 363-36F 485-486 64B-655",
      "670 951-952 1CD0-1CD2 1CD4-1CE0 1CE2-1CE8 1CED 1CF4 1CF8-1CF9 1DC0-1DC1 1DF8 1DFA",
      "20F0 302A-302D 3099-309A 102E0 1133B"]),
  ("Zyyy",
    [],
    ["B7 2BC 2C7 2C9-2CB 2CD 2D7 2D9 374 60C 61B 61F 640 964-965 10FB 16EB-16ED 1735-1736",
      "1802-1803 1805 1CD3 1CE1 1CE9-1CEC 1CEE-1CF3 1CF5-1CF7 1CFA 202F 204F 205A 205D 2E17",
      "2E30-2E31 2E3C 2E41 2E43 2FF0-2FFF 3001-3003 3006 3008-3011 3013-301F 3030-3035 3037",
      "303C-303F 309B-309C 30A0 30FB-30FC 3190-319F 31C0-31E5 31EF 3220-3247 3280-32B0",
      "32C0-32CB 32FF 3358-3370 337B-337F 33E0-33FE A700-A707 A830-A839 A92E A9CF FD3E-FD3F",
      "FE45-FE46 FF61-FF65 FF70 FF9E-FF9F 10100-10102 10107-10133 10137-1013F 102E1-102FB",
      "1BCA0-1BCA3 1D360-1D371 1F250-1F251"])]

def scriptExtensions : List (String × Ranges × Ranges) :=
  scriptExtensionTable.map fun (code, gained, lost) =>
    (code, Ranges.read gained, Ranges.read lost)

/-- Whether a character belongs to a script by the property Script_Extensions. -/
def inScriptExtensions (code : String) (c : Char) : Bool :=
  match scriptExtensions.find? fun row => row.1 == code with
  | none => script c == code
  | some (_, gained, lost) =>
    gained.contain c.toNat || (script c == code && !lost.contain c.toNat)

/-- The code of each script with its names, in the form that name lookup uses. -/
def scriptNames : List (String × List String) := [
  ("Adlm", ["adlm", "adlam"]),
  ("Aghb", ["aghb", "caucasianalbanian"]),
  ("Ahom", ["ahom"]),
  ("Arab", ["arab", "arabic"]),
  ("Armi", ["armi", "imperialaramaic"]),
  ("Armn", ["armn", "armenian"]),
  ("Avst", ["avst", "avestan"]),
  ("Bali", ["bali", "balinese"]),
  ("Bamu", ["bamu", "bamum"]),
  ("Bass", ["bass", "bassavah"]),
  ("Batk", ["batk", "batak"]),
  ("Beng", ["beng", "bengali"]),
  ("Berf", ["berf", "beriaerfe"]),
  ("Bhks", ["bhks", "bhaiksuki"]),
  ("Bopo", ["bopo", "bopomofo"]),
  ("Brah", ["brah", "brahmi"]),
  ("Brai", ["brai", "braille"]),
  ("Bugi", ["bugi", "buginese"]),
  ("Buhd", ["buhd", "buhid"]),
  ("Cakm", ["cakm", "chakma"]),
  ("Cans", ["cans", "canadianaboriginal"]),
  ("Cari", ["cari", "carian"]),
  ("Cham", ["cham"]),
  ("Cher", ["cher", "cherokee"]),
  ("Chrs", ["chrs", "chorasmian"]),
  ("Copt", ["copt", "coptic", "qaac"]),
  ("Cpmn", ["cpmn", "cyprominoan"]),
  ("Cprt", ["cprt", "cypriot"]),
  ("Cyrl", ["cyrl", "cyrillic"]),
  ("Deva", ["deva", "devanagari"]),
  ("Diak", ["diak", "divesakuru"]),
  ("Dogr", ["dogr", "dogra"]),
  ("Dsrt", ["dsrt", "deseret"]),
  ("Dupl", ["dupl", "duployan"]),
  ("Egyp", ["egyp", "egyptianhieroglyphs"]),
  ("Elba", ["elba", "elbasan"]),
  ("Elym", ["elym", "elymaic"]),
  ("Ethi", ["ethi", "ethiopic"]),
  ("Gara", ["gara", "garay"]),
  ("Geor", ["geor", "georgian"]),
  ("Glag", ["glag", "glagolitic"]),
  ("Gong", ["gong", "gunjalagondi"]),
  ("Gonm", ["gonm", "masaramgondi"]),
  ("Goth", ["goth", "gothic"]),
  ("Gran", ["gran", "grantha"]),
  ("Grek", ["grek", "greek"]),
  ("Gujr", ["gujr", "gujarati"]),
  ("Gukh", ["gukh", "gurungkhema"]),
  ("Guru", ["guru", "gurmukhi"]),
  ("Hang", ["hang", "hangul"]),
  ("Hani", ["hani", "han"]),
  ("Hano", ["hano", "hanunoo"]),
  ("Hatr", ["hatr", "hatran"]),
  ("Hebr", ["hebr", "hebrew"]),
  ("Hira", ["hira", "hiragana"]),
  ("Hluw", ["hluw", "anatolianhieroglyphs"]),
  ("Hmng", ["hmng", "pahawhhmong"]),
  ("Hmnp", ["hmnp", "nyiakengpuachuehmong"]),
  ("Hung", ["hung", "oldhungarian"]),
  ("Ital", ["ital", "olditalic"]),
  ("Java", ["java", "javanese"]),
  ("Kali", ["kali", "kayahli"]),
  ("Kana", ["kana", "katakana"]),
  ("Kawi", ["kawi"]),
  ("Khar", ["khar", "kharoshthi"]),
  ("Khmr", ["khmr", "khmer"]),
  ("Khoj", ["khoj", "khojki"]),
  ("Kits", ["kits", "khitansmallscript"]),
  ("Knda", ["knda", "kannada"]),
  ("Krai", ["krai", "kiratrai"]),
  ("Kthi", ["kthi", "kaithi"]),
  ("Lana", ["lana", "taitham"]),
  ("Laoo", ["laoo", "lao"]),
  ("Latn", ["latn", "latin"]),
  ("Lepc", ["lepc", "lepcha"]),
  ("Limb", ["limb", "limbu"]),
  ("Lina", ["lina", "lineara"]),
  ("Linb", ["linb", "linearb"]),
  ("Lisu", ["lisu"]),
  ("Lyci", ["lyci", "lycian"]),
  ("Lydi", ["lydi", "lydian"]),
  ("Mahj", ["mahj", "mahajani"]),
  ("Maka", ["maka", "makasar"]),
  ("Mand", ["mand", "mandaic"]),
  ("Mani", ["mani", "manichaean"]),
  ("Marc", ["marc", "marchen"]),
  ("Medf", ["medf", "medefaidrin"]),
  ("Mend", ["mend", "mendekikakui"]),
  ("Merc", ["merc", "meroiticcursive"]),
  ("Mero", ["mero", "meroitichieroglyphs"]),
  ("Mlym", ["mlym", "malayalam"]),
  ("Modi", ["modi"]),
  ("Mong", ["mong", "mongolian"]),
  ("Mroo", ["mroo", "mro"]),
  ("Mtei", ["mtei", "meeteimayek"]),
  ("Mult", ["mult", "multani"]),
  ("Mymr", ["mymr", "myanmar"]),
  ("Nagm", ["nagm", "nagmundari"]),
  ("Nand", ["nand", "nandinagari"]),
  ("Narb", ["narb", "oldnortharabian"]),
  ("Nbat", ["nbat", "nabataean"]),
  ("Newa", ["newa"]),
  ("Nkoo", ["nkoo", "nko"]),
  ("Nshu", ["nshu", "nushu"]),
  ("Ogam", ["ogam", "ogham"]),
  ("Olck", ["olck", "olchiki"]),
  ("Onao", ["onao", "olonal"]),
  ("Orkh", ["orkh", "oldturkic"]),
  ("Orya", ["orya", "oriya"]),
  ("Osge", ["osge", "osage"]),
  ("Osma", ["osma", "osmanya"]),
  ("Ougr", ["ougr", "olduyghur"]),
  ("Palm", ["palm", "palmyrene"]),
  ("Pauc", ["pauc", "paucinhau"]),
  ("Perm", ["perm", "oldpermic"]),
  ("Phag", ["phag", "phagspa"]),
  ("Phli", ["phli", "inscriptionalpahlavi"]),
  ("Phlp", ["phlp", "psalterpahlavi"]),
  ("Phnx", ["phnx", "phoenician"]),
  ("Plrd", ["plrd", "miao"]),
  ("Prti", ["prti", "inscriptionalparthian"]),
  ("Rjng", ["rjng", "rejang"]),
  ("Rohg", ["rohg", "hanifirohingya"]),
  ("Runr", ["runr", "runic"]),
  ("Samr", ["samr", "samaritan"]),
  ("Sarb", ["sarb", "oldsoutharabian"]),
  ("Saur", ["saur", "saurashtra"]),
  ("Sgnw", ["sgnw", "signwriting"]),
  ("Shaw", ["shaw", "shavian"]),
  ("Shrd", ["shrd", "sharada"]),
  ("Sidd", ["sidd", "siddham"]),
  ("Sidt", ["sidt", "sidetic"]),
  ("Sind", ["sind", "khudawadi"]),
  ("Sinh", ["sinh", "sinhala"]),
  ("Sogd", ["sogd", "sogdian"]),
  ("Sogo", ["sogo", "oldsogdian"]),
  ("Sora", ["sora", "sorasompeng"]),
  ("Soyo", ["soyo", "soyombo"]),
  ("Sund", ["sund", "sundanese"]),
  ("Sunu", ["sunu", "sunuwar"]),
  ("Sylo", ["sylo", "sylotinagri"]),
  ("Syrc", ["syrc", "syriac"]),
  ("Tagb", ["tagb", "tagbanwa"]),
  ("Takr", ["takr", "takri"]),
  ("Tale", ["tale", "taile"]),
  ("Talu", ["talu", "newtailue"]),
  ("Taml", ["taml", "tamil"]),
  ("Tang", ["tang", "tangut"]),
  ("Tavt", ["tavt", "taiviet"]),
  ("Tayo", ["tayo", "taiyo"]),
  ("Telu", ["telu", "telugu"]),
  ("Tfng", ["tfng", "tifinagh"]),
  ("Tglg", ["tglg", "tagalog"]),
  ("Thaa", ["thaa", "thaana"]),
  ("Thai", ["thai"]),
  ("Tibt", ["tibt", "tibetan"]),
  ("Tirh", ["tirh", "tirhuta"]),
  ("Tnsa", ["tnsa", "tangsa"]),
  ("Todr", ["todr", "todhri"]),
  ("Tols", ["tols", "tolongsiki"]),
  ("Toto", ["toto"]),
  ("Tutg", ["tutg", "tulutigalari"]),
  ("Ugar", ["ugar", "ugaritic"]),
  ("Vaii", ["vaii", "vai"]),
  ("Vith", ["vith", "vithkuqi"]),
  ("Wara", ["wara", "warangciti"]),
  ("Wcho", ["wcho", "wancho"]),
  ("Xpeo", ["xpeo", "oldpersian"]),
  ("Xsux", ["xsux", "cuneiform"]),
  ("Yezi", ["yezi", "yezidi"]),
  ("Yiii", ["yiii", "yi"]),
  ("Zanb", ["zanb", "zanabazarsquare"]),
  ("Zinh", ["zinh", "inherited", "qaai"]),
  ("Zyyy", ["zyyy", "common"])]

end PathRouting.Unicode
