import Versioning.Unicode.Runs

/-!
# Scripts

Every character is known by its *script*, for which there is a code of four letters. Signs that
are used in many scripts, and marks that are put on characters of any script, have scripts of
their own; for some of them, and for some letters, it is known in which scripts they are used.

* `scriptOf` is the script of a character, `scriptsOf` are all the scripts it is used in;
* `scripts` and `scriptExtensions` are the sets that these make up, by the names of the scripts.
-/

namespace Versioning.Unicode

/-- The runs of equal script. -/
def scriptRuns : RunTable :=
  .ofLines
    ["65zyyy26latn6zyyy26latn47zyyy1latn15zyyy1latn5zyyy23latn1zyyy31latn1zyyy449latn39zyyy5latn",
     "5zyyy2bopo20zyyy112zinh4grek1zyyy3grek2-4grek1zyyy1grek4-1grek1zyyy1grek1zyyy3grek1-1grek1",
     "-20grek1-63grek14copt16grek133cyrl2zinh169cyrl1-38armn2-50armn2-3armn1-55hebr8-27hebr4-6he",
     "br11-5arab1zyyy6arab1zyyy14arab1zyyy3arab1zyyy32arab1zyyy10arab11zinh26arab1zinh108arab1zy",
     "yy34arab14syrc1-60syrc2-3syrc48arab50thaa14-59nkoo2-3nkoo46samr2-15samr1-28mand2-1mand1-11",
     "syrc5-31arab1-2arab5-75arab1zyyy29arab81deva4zinh15deva2zyyy26deva4beng1-8beng2-2beng2-22b",
     "eng1-7beng1-1beng3-4beng2-9beng2-2beng2-4beng8-1beng4-2beng1-5beng2-25beng2-3guru1-6guru4-",
     "2guru2-22guru1-7guru1-2guru1-2guru1-2guru2-1guru1-5guru4-2guru2-3guru3-1guru7-4guru1-1guru",
     "7-17guru10-3gujr1-9gujr1-3gujr1-22gujr1-7gujr1-2gujr1-5gujr2-10gujr1-3gujr1-3gujr2-1gujr15",
     "-4gujr2-12gujr7-7gujr1-3orya1-8orya2-2orya2-22orya1-7orya1-2orya1-5orya2-9orya2-2orya2-3or",
     "ya7-3orya4-2orya1-5orya2-18orya10-2taml1-6taml3-3taml1-4taml3-2taml1-1taml1-2taml3-2taml3-",
     "3taml3-12taml4-5taml3-3taml1-4taml2-1taml6-1taml14-21taml5-13telu1-3telu1-23telu1-16telu2-",
     "9telu1-3telu1-4telu7-2telu1-3telu2-1telu2-4telu2-10telu7-9telu13knda1-3knda1-23knda1-10knd",
     "a1-5knda2-9knda1-3knda1-4knda7-2knda6-2knda1-4knda2-10knda1-3knda12-13mlym1-3mlym1-51mlym1",
     "-3mlym1-6mlym4-16mlym2-26mlym1-3sinh1-18sinh3-24sinh1-9sinh1-1sinh2-7sinh3-1sinh4-6sinh1-1",
     "sinh1-8sinh6-10sinh2-3sinh12-58thai4-1zyyy28thai37-2laoo1-1laoo1-5laoo1-24laoo1-1laoo1-23l",
     "aoo2-5laoo1-1laoo1-7laoo1-10laoo2-4laoo32-72tibt1-36tibt4-39tibt1-36tibt1-15tibt1-7tibt4zy",
     "yy2tibt37-160mymr38geor1-1geor5-1geor2-43geor1zyyy4geor256hang73ethi1-4ethi2-7ethi1-1ethi1",
     "-4ethi2-41ethi1-4ethi2-33ethi1-4ethi2-7ethi1-1ethi1-4ethi2-15ethi1-57ethi1-4ethi2-67ethi2-",
     "32ethi3-26ethi6-86cher2-6cher2-640cans29ogam3-75runr3zyyy11runr7-22tglg9-1tglg21hano2zyyy9",
     "-20buhd12-13tagb1-3tagb1-2tagb12-94khmr2-10khmr6-10khmr6-2mong2zyyy1mong1zyyy20mong6-89mon",
     "g7-43mong5-70cans10-31limb1-12limb4-12limb4-1limb3-12limb30tale2-5tale11-44talu4-26talu6-1",
     "1talu3-2talu32khmr28bugi2-2bugi63lana1-29lana2-11lana6-10lana6-14lana2-31zinh49-77bali1-50",
     "bali64sund52batk8-4batk56lepc3-15lepc3-3lepc48olck11cyrl5-43geor2-3geor8sund8-3zinh1zyyy13",
     "zinh1zyyy7zinh4zyyy1zinh6zyyy1zinh3zyyy2zinh1zyyy5-38latn5grek1cyrl49latn5grek4latn5grek13",
     "latn1cyrl70latn1grek64zinh256latn22grek2-6grek2-38grek2-6grek2-8grek1-1grek1-1grek1-1grek1",
     "-31grek2-53grek1-15grek1-14grek2-6grek1-19grek2-3grek1-9grek1-12zyyy2zinh87zyyy1-11zyyy1la",
     "tn2-11zyyy1latn15zyyy1-13latn3-33zyyy15-33zinh15-38zyyy1grek3zyyy2latn6zyyy1latn27zyyy1lat",
     "n17zyyy41latn3zyyy4-666zyyy22-11zyyy21-928zyyy256brai628zyyy2-32zyyy1-105zyyy96glag32latn1",
     "16copt5-7copt38geor1-1geor5-1geor2-56tfng7-2tfng14-1tfng23ethi9-7ethi1-7ethi1-7ethi1-7ethi",
     "1-7ethi1-7ethi1-7ethi1-7ethi1-32cyrl94zyyy34-26hani1-89hani12-214hani26-21zyyy1hani1zyyy1h",
     "ani25zyyy9hani4zinh2hang8zyyy4hani4zyyy1-86hira2-2zinh2zyyy3hira1zyyy90kana2zyyy3kana5-43b",
     "opo1-94hang1-16zyyy32bopo38zyyy9-1zyyy16kana31hang1-64zyyy31hang81zyyy47kana1zyyy88kana168",
     "zyyy6592hani64zyyy20992hani1165yiii3-55yiii9-48lisu300vaii20-96cyrl88bamu8-34zyyy102latn3z",
     "yyy67latn2-2latn1-1latn1-8latn21-14latn45sylo3-10zyyy6-56phag8-70saur8-12saur6-32deva46kal",
     "i1zyyy1kali36rjng11-1rjng29hang3-78java1-1zyyy10java4-2java31mymr1-55cham9-14cham2-10cham2",
     "-4cham32mymr67tavt24-5tavt23mtei10-6ethi2-6ethi2-6ethi9-7ethi1-7ethi1-43latn1zyyy9latn1gre",
     "k4latn2zyyy4-80cher46mtei2-10mtei6-11172hang12-23hang4-49hang8452-366hani2-106hani38-7latn",
     "12-5armn5-26hebr1-5hebr1-1hebr1-2hebr1-2hebr1-10hebr115arab16-363arab2zyyy80arab2-54arab7-",
     "1arab32-16arab16zinh10zyyy6-14zinh2cyrl35zyyy1-19zyyy1-4zyyy4-5arab1-135arab2-1zyyy1-32zyy",
     "y26latn6zyyy26latn11zyyy10kana1zyyy45kana2zyyy31hang3-6hang2-6hang2-6hang2-3hang3-7zyyy1-7",
     "zyyy10-5zyyy2-12linb1-26linb1-19linb1-2linb1-15linb2-14linb34-123linb5-3zyyy4-45zyyy3-9zyy",
     "y79grek1-13zyyy3-1grek47-45zyyy1zinh130-29lyci3-49cari15-1zinh27zyyy4-36ital9-3ital27goth5",
     "-43perm5-30ugar1-1ugar36xpeo4-14xpeo42-80dsrt48shaw30osma2-10osma6-36osge4-36osge4-40elba8",
     "-52aghb11-1aghb11vith1-15vith1-7vith1-2vith1-11vith1-15vith1-7vith1-2vith3-52todr12-311lin",
     "a9-22lina10-8lina24-6latn1-42latn1-9latn69-6cprt2-1cprt1-44cprt1-2cprt3-1cprt2-1cprt22armi",
     "1-9armi32palm31nbat8-9nbat48-19hatr1-2hatr5-5hatr28phnx3-1phnx26lydi5-1lydi64-32mero24merc",
     "4-20merc2-46merc4khar1-2khar5-8khar1-3khar1-29khar2-3khar4-10khar7-9khar7-32sarb32narb32-3",
     "9mani4-12mani9-54avst3-7avst22prti2-8prti19phli5-8phli18phlp7-4phlp12-7phlp80-73orkh55-51h",
     "ung13-51hung7-6hung40rohg8-10rohg6-38gara3-29gara8-2gara208-31arab1-42yezi1-3yezi2-2yezi16",
     "-3arab55-4arab40sogo8-42sogd22-26ougr38-28chrs20-23elym9-78brah4-36brah9-1brah67kthi10-1kt",
     "hi2-25sora7-10sora6-53cakm1-18cakm8-39mahj9-96shrd1-20sinh11-18khoj1-47khoj62-7mult1-1mult",
     "1-4mult1-15mult1-11mult6-59sind5-10sind6-4gran1-8gran2-2gran2-22gran1-7gran1-2gran1-5gran1",
     "-1zinh9gran2-2gran2-3gran2-1gran6-1gran5-7gran2-7gran3-5gran11-10tutg1-1tutg2-1tutg1-38tut",
     "g1-10tutg1-1tutg2-1tutg1-4tutg1-10tutg1-2tutg8-2tutg29-92newa1-5newa30-72tirh8-10tirh166-5",
     "4sidd2-38sidd34-69modi11-10modi6-13mong19-58takr6-10takr6-20mymr28-27ahom2-15ahom4-23ahom1",
     "85-60dogr100-83wara12-1wara7diak2-1diak2-8diak1-2diak1-30diak1-2diak2-12diak9-10diak70-8na",
     "nd2-46nand2-11nand27-72zanb8-83soyo13-16cans57pauc7-10deva182-34sunu14-10sunu6-9bhks1-45bh",
     "ks1-14bhks10-29bhks3-32marc2-22marc1-14marc73-7gonm1-2gonm1-44gonm3-1gonm1-2gonm1-9gonm8-1",
     "0gonm6-6gong1-2gong1-37gong1-2gong1-6gong7-10gong310-25maka7-17kawi1-41kawi3-29kawi85-1lis",
     "u15-50taml13-1taml922xsux102-111xsux1-5xsux11-196xsux2636-99cpmn13-1110egyp10-3995egyp5-58",
     "3hluw6841-58gukh1734-569bamu7-31mroo1-10mroo4-2mroo79tnsa1-10tnsa6-30bass2-6bass10-70hmng1",
     "0-10hmng1-7hmng1-21hmng5-19hmng432-58krai198-91medf101-75plrd4-57plrd7-17plrd64-1tang1nshu",
     "2hani1kits11-2hani14-6136tang8-768tang470kits41-1kits9tang8935-4kana1-7kana1-2kana1-1kana2",
     "87hira3kana15-1hira29-3hira2-1kana14-4kana8-396nshu2308-107dupl5-13dupl3-9dupl7-10dupl2-4d",
     "upl4zyyy3932-250zyyy6-436zyyy76-46zinh2-23zinh9-116zyyy60-246zyyy10-39zyyy2-62zyyy3zinh17z",
     "yyy8zinh2zyyy7zinh30zyyy4zinh61zyyy21-70grek122-20zyyy12-20zyyy12-87zyyy9-25zyyy135-85zyyy",
     "1-71zyyy1-2zyyy2-1zyyy2-2zyyy2-4zyyy1-12zyyy1-1zyyy1-7zyyy1-65zyyy1-4zyyy2-8zyyy1-7zyyy1-2",
     "8zyyy1-4zyyy1-5zyyy1-1zyyy3-7zyyy1-340zyyy2-292zyyy2-50zyyy652sgnw15-5sgnw1-15sgnw1104-31l",
     "atn6-6latn213-7glag1-17glag2-7glag1-2glag1-5glag5-62cyrl33-1cyrl112-45hmnp3-14hmnp2-10hmnp",
     "4-2hmnp320-31toto17-58wcho5-1wcho464-42nagm214-43onao4-1onao480-7ethi1-4ethi1-2ethi1-15eth",
     "i1-197mend2-16mend41-76adlm4-10adlm4-2adlm785-68zyyy76-61zyyy194-4arab1-27arab1-2arab1-1ar",
     "ab2-1arab1-10arab1-4arab1-1arab1-1arab6-1arab4-1arab1-1arab1-1arab1-3arab1-2arab1-1arab2-1",
     "arab1-1arab1-1arab1-1arab1-1arab1-2arab1-1arab2-4arab1-7arab1-4arab1-4arab1-1arab1-10arab1",
     "-17arab5-3arab1-5arab1-17arab52-2arab270-44zyyy4-100zyyy12-15zyyy2-15zyyy1-15zyyy1-37zyyy1",
     "0-174zyyy56-26zyyy1hira2zyyy13-44zyyy4-9zyyy7-2zyyy14-6zyyy154-984zyyy4-17zyyy3-13zyyy3-11",
     "9zyyy4-95zyyy6-12zyyy4-1zyyy15-12zyyy4-56zyyy8-10zyyy6-40zyyy8-30zyyy2-12zyyy4-2zyyy62-340",
     "zyyy12-14zyyy2-13zyyy3-10zyyy5-56zyyy7-15zyyy2-11zyyy6-9zyyy7-147zyyy1-102zyyy1030-42720ha",
     "ni32-4154hani6-222hani2-5762hani14-7473hani15-622hani2466-542hani1506-4939hani5-4192hani71",
     "1761-1zyyy30-96zyyy128-240zinh196112-"]

/-- The scripts in which characters are used, where these are not just their own. -/
def scriptExtensionRuns : RunTable :=
  .ofLines
    ["183-1avst,cari,copt,dupl,elba,geor,glag,gong,goth,grek,hani,latn,lydi,mahj,perm,shaw516-1b",
     "eng,cyrl,deva,latn,lisu,thai,toto10-1bopo,latn1-3bopo,latn1-1latn,lisu9-1latn,thai1-1bopo,",
     "latn38-1cher,copt,cyrl,grek,latn,perm,sunu,tale1cher,cyrl,grek,latn,osge,sunu,tale,todr1ch",
     "er,cyrl,latn,tfng1glag,latn,sunu,syrc,thai1aghb,cher,copt,cyrl,goth,grek,latn,osge,syrc,tf",
     "ng,todr1copt,elba,glag,goth,kana,latn1cyrl,grek,latn,perm1copt,dupl,hebr,latn,perm,syrc,ta",
     "le,tfng,todr1armn,cyrl,dupl,goth,grek,hebr,latn,perm,syrc,tale1latn,tfng1dupl,latn,syrc1ch",
     "er,cyrl,latn,osge1cher,latn,tale1latn,sunu1ethi,latn1-1latn,sunu1cyrl,latn,todr1-1grek,lat",
     "n,perm,todr12-1latn,syrc2-1cher,dupl,kana,latn,syrc1cher,dupl,latn,syrc1latn,syrc7-1latn,s",
     "unu,syrc1latn,syrc1-1cher,latn,syrc1aghb,cher,goth,latn,sunu,thai16-1grek2-1grek18-1latn,o",
     "sge5-1aghb,latn,todr4-13latn4-2copt,grek269-1cyrl,perm1cyrl,glag2cyrl,latn1cyrl,glag257-1a",
     "rmn,geor,glag130-1arab,gara,nkoo,rohg,syrc,thaa,yezi14-1arab,gara,nkoo,rohg,syrc,thaa,yezi",
     "1arab,syrc,thaa2-1adlm,arab,gara,nkoo,rohg,syrc,thaa,yezi32-1adlm,arab,mand,mani,ougr,phlp",
     ",rohg,sogd,syrc10-11arab,syrc10-10arab,thaa,yezi6-1arab,syrc99-1arab,rohg636-1beng,deva,gr",
     "an,gujr,guru,knda,latn,mlym,orya,shrd,taml,telu,tirh1beng,deva,gran,gujr,guru,knda,latn,ml",
     "ym,orya,taml,telu,tirh17-1beng,deva,dogr,gong,gonm,gran,gujr,guru,knda,mahj,mlym,nand,onao",
     ",orya,sind,sinh,sylo,takr,taml,telu,tirh1beng,deva,dogr,gong,gonm,gran,gujr,gukh,guru,knda",
     ",limb,mahj,mlym,nand,onao,orya,sind,sinh,sylo,takr,taml,telu,tirh10deva,dogr,kthi,mahj118-",
     "10beng,cakm,sylo118-10guru,mult118-10gujr,khoj246-14gran,taml242-10knda,nand,tutg848-10cak",
     "m,mymr,tale177-1geor,glag,latn1519-3runr71-2buhd,hano,tagb,tglg203-2mong,phag1-1mong,phag1",
     "226-1beng,deva,gran,knda1deva1beng,deva,gran,knda1deva,gran,knda1deva2beng,deva1deva,shrd1",
     "beng,deva1deva,shrd1deva,knda,mlym,orya,taml,telu1deva2deva,shrd2deva1deva,shrd1beng,deva7",
     "deva1deva,nand1beng,deva2deva1beng,deva4deva1beng,deva,gran,knda,mlym,nand,orya,sinh,telu,",
     "tirh,tutg1deva,gran1deva,gran,knda,tutg2beng,deva1beng2deva,gran1nand197-2grek54-1cyrl,lat",
     "n,syrc1-1syrc564-1latn,mong,phag31-1adlm,arab10-1cari,geor,glag,hung,lyci,orkh2-1cari,grek",
     ",hung,mero146-1deva,gran,latn3366-1copt,latn24-1avst,orkh1avst,cari,geor,hung,kthi,lydi,sa",
     "mr10-1dupl4-1adlm,arab,hung1-1cyrl,glag428-16hani,tang1-1bopo,hang,hani,hira,kana,mong,yii",
     "i1bopo,hang,hani,hira,kana,mong,phag,yiii1bopo,hang,hani,hira,kana2-1hani1-2bopo,hang,hani",
     ",hira,kana,mong,tibt,yiii2bopo,hang,hani,hira,kana,lisu,mong,tibt,yiii6bopo,hang,hani,hira",
     ",kana,yiii1-1bopo,hang,hani,hira,kana8bopo,hang,hani,hira,kana,yiii4bopo,hang,hani,hira,ka",
     "na10-4bopo,hani2-1bopo,hang,hani,hira,kana5hira,kana1-1bopo,hang,hani,hira,kana4-2hani,hir",
     "a,kana2hani89-4hira,kana3-1hira,kana90-1bopo,hang,hani,hira,kana,yiii1hira,kana147-16hani3",
     "2-38hani9-1hani,tang48-40hani56-49hani15-12hani51-1hani88-25hani10-5hani96-31hani29296-1cy",
     "rl,glag144-8hani,latn296-3deva,dogr,gujr,guru,khoj,knda,kthi,mahj,mlym,modi,nand,shrd,sind",
     ",takr,tirh,tutg3deva,dogr,gujr,guru,khoj,knda,kthi,mahj,modi,nand,shrd,sind,takr,tirh,tutg",
     "2deva,dogr,gujr,guru,khoj,kthi,mahj,modi,sind,takr,tirh1deva,dogr,gujr,guru,khoj,kthi,mahj",
     ",modi,shrd,sind,takr,tirh1deva,dogr,gujr,guru,khoj,kthi,mahj,modi,sind,takr,tirh183-1beng,",
     "deva,tutg1-1deva,taml58-1kali,latn,mymr160-1bugi,java21358-2arab,nkoo178-1arab,thaa10-1ara",
     "b,thaa71-2bopo,hang,hani,hira,kana282-5bopo,hang,hani,hira,kana,yiii10-1hira,kana45-2hira,",
     "kana352-2cpmn,cprt,linb1cprt,linb4-45cprt,lina,linb3-9cprt,linb416-28arab,copt2038-1mani,o",
     "ugr2062-1gran,taml1-1gran,taml55-2gran,taml3219-2gran,taml1-1gran,taml40140-4dupl5820-18ha",
     "ni7902-2hani986542-"]

/-- The names of the scripts; the first is the code. -/
def scriptNames : List (List String) :=
  [["adlm", "adlam"], ["aghb", "caucasianalbanian"], ["ahom"], ["arab", "arabic"],
   ["armi", "imperialaramaic"], ["armn", "armenian"], ["avst", "avestan"], ["bali", "balinese"],
   ["bamu", "bamum"], ["bass", "bassavah"], ["batk", "batak"], ["beng", "bengali"],
   ["bhks", "bhaiksuki"], ["bopo", "bopomofo"], ["brah", "brahmi"], ["brai", "braille"],
   ["bugi", "buginese"], ["buhd", "buhid"], ["cakm", "chakma"], ["cans", "canadianaboriginal"],
   ["cari", "carian"], ["cham"], ["cher", "cherokee"], ["chrs", "chorasmian"],
   ["copt", "coptic", "qaac"], ["cpmn", "cyprominoan"], ["cprt", "cypriot"], ["cyrl", "cyrillic"],
   ["deva", "devanagari"], ["diak", "divesakuru"], ["dogr", "dogra"], ["dsrt", "deseret"],
   ["dupl", "duployan"], ["egyp", "egyptianhieroglyphs"], ["elba", "elbasan"], ["elym", "elymaic"],
   ["ethi", "ethiopic"], ["gara", "garay"], ["geor", "georgian"], ["glag", "glagolitic"],
   ["gong", "gunjalagondi"], ["gonm", "masaramgondi"], ["goth", "gothic"], ["gran", "grantha"],
   ["grek", "greek"], ["gujr", "gujarati"], ["gukh", "gurungkhema"], ["guru", "gurmukhi"],
   ["hang", "hangul"], ["hani", "han"], ["hano", "hanunoo"], ["hatr", "hatran"], ["hebr", "hebrew"],
   ["hira", "hiragana"], ["hluw", "anatolianhieroglyphs"], ["hmng", "pahawhhmong"],
   ["hmnp", "nyiakengpuachuehmong"], ["hung", "oldhungarian"], ["ital", "olditalic"],
   ["java", "javanese"], ["kali", "kayahli"], ["kana", "katakana"], ["kawi"],
   ["khar", "kharoshthi"], ["khmr", "khmer"], ["khoj", "khojki"], ["kits", "khitansmallscript"],
   ["knda", "kannada"], ["krai", "kiratrai"], ["kthi", "kaithi"], ["lana", "taitham"],
   ["laoo", "lao"], ["latn", "latin"], ["lepc", "lepcha"], ["limb", "limbu"], ["lina", "lineara"],
   ["linb", "linearb"], ["lisu"], ["lyci", "lycian"], ["lydi", "lydian"], ["mahj", "mahajani"],
   ["maka", "makasar"], ["mand", "mandaic"], ["mani", "manichaean"], ["marc", "marchen"],
   ["medf", "medefaidrin"], ["mend", "mendekikakui"], ["merc", "meroiticcursive"],
   ["mero", "meroitichieroglyphs"], ["mlym", "malayalam"], ["modi"], ["mong", "mongolian"],
   ["mroo", "mro"], ["mtei", "meeteimayek"], ["mult", "multani"], ["mymr", "myanmar"],
   ["nagm", "nagmundari"], ["nand", "nandinagari"], ["narb", "oldnortharabian"],
   ["nbat", "nabataean"], ["newa"], ["nkoo", "nko"], ["nshu", "nushu"], ["ogam", "ogham"],
   ["olck", "olchiki"], ["onao", "olonal"], ["orkh", "oldturkic"], ["orya", "oriya"],
   ["osge", "osage"], ["osma", "osmanya"], ["ougr", "olduyghur"], ["palm", "palmyrene"],
   ["pauc", "paucinhau"], ["perm", "oldpermic"], ["phag", "phagspa"],
   ["phli", "inscriptionalpahlavi"], ["phlp", "psalterpahlavi"], ["phnx", "phoenician"],
   ["plrd", "miao"], ["prti", "inscriptionalparthian"], ["rjng", "rejang"],
   ["rohg", "hanifirohingya"], ["runr", "runic"], ["samr", "samaritan"],
   ["sarb", "oldsoutharabian"], ["saur", "saurashtra"], ["sgnw", "signwriting"],
   ["shaw", "shavian"], ["shrd", "sharada"], ["sidd", "siddham"], ["sind", "khudawadi"],
   ["sinh", "sinhala"], ["sogd", "sogdian"], ["sogo", "oldsogdian"], ["sora", "sorasompeng"],
   ["soyo", "soyombo"], ["sund", "sundanese"], ["sunu", "sunuwar"], ["sylo", "sylotinagri"],
   ["syrc", "syriac"], ["tagb", "tagbanwa"], ["takr", "takri"], ["tale", "taile"],
   ["talu", "newtailue"], ["taml", "tamil"], ["tang", "tangut"], ["tavt", "taiviet"],
   ["telu", "telugu"], ["tfng", "tifinagh"], ["tglg", "tagalog"], ["thaa", "thaana"], ["thai"],
   ["tibt", "tibetan"], ["tirh", "tirhuta"], ["tnsa", "tangsa"], ["todr", "todhri"], ["toto"],
   ["tutg", "tulutigalari"], ["ugar", "ugaritic"], ["vaii", "vai"], ["vith", "vithkuqi"],
   ["wara", "warangciti"], ["wcho", "wancho"], ["xpeo", "oldpersian"], ["xsux", "cuneiform"],
   ["yezi", "yezidi"], ["yiii", "yi"], ["zanb", "zanabazarsquare"], ["zinh", "inherited", "qaai"],
   ["zyyy", "common"]]

/-- The script of a character. -/
def scriptOf (c : Char) : String :=
  scriptRuns.mark c

/-- The scripts in which a character is used. -/
def scriptsOf (c : Char) : List String :=
  match scriptExtensionRuns.mark c with
  | "-" => [scriptOf c]
  | codes => codes.splitOn ","

/-- The characters of a script. -/
def scripts : List NamedSet :=
  scriptNames.map fun names => ⟨names, fun c => names.head? == some (scriptOf c)⟩

/-- The characters that are used in a script. -/
def scriptExtensions : List NamedSet :=
  scriptNames.map fun names => ⟨names, fun c => names.head?.any (scriptsOf c).contains⟩

end Versioning.Unicode
