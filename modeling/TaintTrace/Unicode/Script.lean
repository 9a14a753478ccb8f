import TaintTrace.Unicode.Runs

/-!
# Scripts

The script of every code point, as in version 17.0 of the Unicode character
database.
-/

namespace TaintTrace
namespace Unicode

/-- The lengths of the runs of code points of one script, in hexadecimal, each
followed by the code of the script. -/
def scriptRuns : List String :=
  ["41Zyyy1aLatn6Zyyy1aLatn2fZyyy1LatnfZyyy1Latn5Zyyy17Latn1Zyyy1fLatn1Zyyy1c1Latn27Zyyy",
   "5Latn5Zyyy2Bopo14Zyyy70Zinh4Grek1Zyyy3Grek2Zzzz4Grek1Zyyy1Grek4Zzzz1Grek1Zyyy1Grek1Zyyy",
   "3Grek1Zzzz1Grek1Zzzz14Grek1Zzzz3fGrekeCopt10Grek85Cyrl2Zinha9Cyrl1Zzzz26Armn2Zzzz32Armn",
   "2Zzzz3Armn1Zzzz37Hebr8Zzzz1bHebr4Zzzz6HebrbZzzz5Arab1Zyyy6Arab1ZyyyeArab1Zyyy3Arab1Zyyy",
   "20Arab1ZyyyaArabbZinh1aArab1Zinh6cArab1Zyyy22ArabeSyrc1Zzzz3cSyrc2Zzzz3Syrc30Arab32Thaa",
   "eZzzz3bNkoo2Zzzz3Nkoo2eSamr2ZzzzfSamr1Zzzz1cMand2Zzzz1Mand1ZzzzbSyrc5Zzzz22Arab5Zzzz",
   "4bArab1Zyyy1dArab51Deva4ZinhfDeva2Zyyy1aDeva4Beng1Zzzz8Beng2Zzzz2Beng2Zzzz16Beng1Zzzz",
   "7Beng1Zzzz1Beng3Zzzz4Beng2Zzzz9Beng2Zzzz2Beng2Zzzz4Beng8Zzzz1Beng4Zzzz2Beng1Zzzz5Beng",
   "2Zzzz19Beng2Zzzz3Guru1Zzzz6Guru4Zzzz2Guru2Zzzz16Guru1Zzzz7Guru1Zzzz2Guru1Zzzz2Guru1Zzzz",
   "2Guru2Zzzz1Guru1Zzzz5Guru4Zzzz2Guru2Zzzz3Guru3Zzzz1Guru7Zzzz4Guru1Zzzz1Guru7Zzzz11Guru",
   "aZzzz3Gujr1Zzzz9Gujr1Zzzz3Gujr1Zzzz16Gujr1Zzzz7Gujr1Zzzz2Gujr1Zzzz5Gujr2ZzzzaGujr1Zzzz",
   "3Gujr1Zzzz3Gujr2Zzzz1GujrfZzzz4Gujr2ZzzzcGujr7Zzzz7Gujr1Zzzz3Orya1Zzzz8Orya2Zzzz2Orya",
   "2Zzzz16Orya1Zzzz7Orya1Zzzz2Orya1Zzzz5Orya2Zzzz9Orya2Zzzz2Orya2Zzzz3Orya7Zzzz3Orya4Zzzz",
   "2Orya1Zzzz5Orya2Zzzz12OryaaZzzz2Taml1Zzzz6Taml3Zzzz3Taml1Zzzz4Taml3Zzzz2Taml1Zzzz1Taml",
   "1Zzzz2Taml3Zzzz2Taml3Zzzz3Taml3ZzzzcTaml4Zzzz5Taml3Zzzz3Taml1Zzzz4Taml2Zzzz1Taml6Zzzz",
   "1TamleZzzz15Taml5ZzzzdTelu1Zzzz3Telu1Zzzz17Telu1Zzzz10Telu2Zzzz9Telu1Zzzz3Telu1Zzzz4Telu",
   "7Zzzz2Telu1Zzzz3Telu1Zzzz2Telu2Zzzz4Telu2ZzzzaTelu7Zzzz9TeludKnda1Zzzz3Knda1Zzzz17Knda",
   "1ZzzzaKnda1Zzzz5Knda2Zzzz9Knda1Zzzz3Knda1Zzzz4Knda7Zzzz2Knda5Zzzz3Knda1Zzzz4Knda2Zzzz",
   "aKnda1Zzzz3KndacZzzzdMlym1Zzzz3Mlym1Zzzz33Mlym1Zzzz3Mlym1Zzzz6Mlym4Zzzz10Mlym2Zzzz1aMlym",
   "1Zzzz3Sinh1Zzzz12Sinh3Zzzz18Sinh1Zzzz9Sinh1Zzzz1Sinh2Zzzz7Sinh3Zzzz1Sinh4Zzzz6Sinh1Zzzz",
   "1Sinh1Zzzz8Sinh6ZzzzaSinh2Zzzz3SinhcZzzz3aThai4Zzzz1Zyyy1cThai25Zzzz2Laoo1Zzzz1Laoo1Zzzz",
   "5Laoo1Zzzz18Laoo1Zzzz1Laoo1Zzzz17Laoo2Zzzz5Laoo1Zzzz1Laoo1Zzzz7Laoo1ZzzzaLaoo2Zzzz4Laoo",
   "20Zzzz48Tibt1Zzzz24Tibt4Zzzz27Tibt1Zzzz24Tibt1ZzzzfTibt1Zzzz7Tibt4Zyyy2Tibt25Zzzza0Mymr",
   "26Geor1Zzzz1Geor5Zzzz1Geor2Zzzz2bGeor1Zyyy4Geor100Hang49Ethi1Zzzz4Ethi2Zzzz7Ethi1Zzzz",
   "1Ethi1Zzzz4Ethi2Zzzz29Ethi1Zzzz4Ethi2Zzzz21Ethi1Zzzz4Ethi2Zzzz7Ethi1Zzzz1Ethi1Zzzz4Ethi",
   "2ZzzzfEthi1Zzzz39Ethi1Zzzz4Ethi2Zzzz43Ethi2Zzzz20Ethi3Zzzz1aEthi6Zzzz56Cher2Zzzz6Cher",
   "2Zzzz280Cans1dOgam3Zzzz4bRunr3ZyyybRunr7Zzzz16Tglg9Zzzz1Tglg15Hano2Zyyy9Zzzz14BuhdcZzzz",
   "dTagb1Zzzz3Tagb1Zzzz2TagbcZzzz5eKhmr2ZzzzaKhmr6ZzzzaKhmr6Zzzz2Mong2Zyyy1Mong1Zyyy14Mong",
   "6Zzzz59Mong7Zzzz2bMong5Zzzz46CansaZzzz1fLimb1ZzzzcLimb4ZzzzcLimb4Zzzz1Limb3ZzzzcLimb",
   "1eTale2Zzzz5TalebZzzz2cTalu4Zzzz1aTalu6ZzzzbTalu3Zzzz2Talu20Khmr1cBugi2Zzzz2Bugi3fLana",
   "1Zzzz1dLana2ZzzzbLana6ZzzzaLana6ZzzzeLana2Zzzz2eZinh2ZzzzcZinh14Zzzz4dBali1Zzzz32Bali",
   "40Sund34Batk8Zzzz4Batk38Lepc3ZzzzfLepc3Zzzz3Lepc30OlckbCyrl5Zzzz2bGeor2Zzzz3Geor8Sund",
   "8Zzzz3Zinh1ZyyydZinh1Zyyy7Zinh4Zyyy1Zinh6Zyyy1Zinh3Zyyy2Zinh1Zyyy5Zzzz26Latn5Grek1Cyrl",
   "31Latn5Grek4Latn5GrekdLatn1Cyrl46Latn1Grek40Zinh100Latn16Grek2Zzzz6Grek2Zzzz26Grek2Zzzz",
   "6Grek2Zzzz8Grek1Zzzz1Grek1Zzzz1Grek1Zzzz1Grek1Zzzz1fGrek2Zzzz35Grek1ZzzzfGrek1ZzzzeGrek",
   "2Zzzz6Grek1Zzzz13Grek2Zzzz3Grek1Zzzz9Grek1ZzzzcZyyy2Zinh57Zyyy1ZzzzbZyyy1Latn2ZzzzbZyyy",
   "1LatnfZyyy1ZzzzdLatn3Zzzz22ZyyyeZzzz21ZinhfZzzz26Zyyy1Grek3Zyyy2Latn6Zyyy1Latn1bZyyy",
   "1Latn11Zyyy29Latn3Zyyy4Zzzz29aZyyy16ZzzzbZyyy15Zzzz3a0Zyyy100Brai274Zyyy2Zzzz8aZyyy",
   "60Glag20Latn74Copt5Zzzz7Copt26Geor1Zzzz1Geor5Zzzz1Geor2Zzzz38Tfng7Zzzz2TfngeZzzz1Tfng",
   "17Ethi9Zzzz7Ethi1Zzzz7Ethi1Zzzz7Ethi1Zzzz7Ethi1Zzzz7Ethi1Zzzz7Ethi1Zzzz7Ethi1Zzzz7Ethi",
   "1Zzzz20Cyrl5eZyyy22Zzzz1aHani1Zzzz59HanicZzzzd6Hani1aZzzz15Zyyy1Hani1Zyyy1Hani19Zyyy",
   "9Hani4Zinh2Hang8Zyyy4Hani4Zyyy1Zzzz56Hira2Zzzz2Zinh2Zyyy3Hira1Zyyy5aKana2Zyyy3Kana5Zzzz",
   "2bBopo1Zzzz5eHang1Zzzz10Zyyy20Bopo26Zyyy9Zzzz1Zyyy10Kana1fHang1Zzzz40Zyyy1fHang51Zyyy",
   "2fKana1Zyyy58Kanaa8Zyyy19c0Hani40Zyyy5200Hani48dYiii3Zzzz37Yiii9Zzzz30Lisu12cVaii14Zzzz",
   "60Cyrl58Bamu8Zzzz22Zyyy66Latn3Zyyy52Latn14ZzzzfLatn2dSylo3ZzzzaZyyy6Zzzz38Phag8Zzzz",
   "46Saur8ZzzzcSaur6Zzzz20Deva2eKali1Zyyy1Kali24RjngbZzzz1Rjng1dHang3Zzzz4eJava1Zzzz1Zyyy",
   "aJava4Zzzz2Java1fMymr1Zzzz37Cham9ZzzzeCham2ZzzzaCham2Zzzz4Cham20Mymr43Tavt18Zzzz5Tavt",
   "17MteiaZzzz6Ethi2Zzzz6Ethi2Zzzz6Ethi9Zzzz7Ethi1Zzzz7Ethi1Zzzz2bLatn1Zyyy9Latn1Grek4Latn",
   "2Zyyy4Zzzz50Cher2eMtei2ZzzzaMtei6Zzzz2ba4HangcZzzz17Hang4Zzzz31Hang2104Zzzz16eHani2Zzzz",
   "6aHani26Zzzz7LatncZzzz5Armn5Zzzz1aHebr1Zzzz5Hebr1Zzzz1Hebr1Zzzz2Hebr1Zzzz2Hebr1ZzzzaHebr",
   "1eeArab2Zyyy90Arab20Zzzz10Arab10ZinhaZyyy6ZzzzeZinh2Cyrl23Zyyy1Zzzz13Zyyy1Zzzz4Zyyy4Zzzz",
   "5Arab1Zzzz87Arab2Zzzz1Zyyy1Zzzz20Zyyy1aLatn6Zyyy1aLatnbZyyyaKana1Zyyy2dKana2Zyyy1fHang",
   "3Zzzz6Hang2Zzzz6Hang2Zzzz6Hang2Zzzz3Hang3Zzzz7Zyyy1Zzzz7ZyyyaZzzz5Zyyy2ZzzzcLinb1Zzzz",
   "1aLinb1Zzzz13Linb1Zzzz2Linb1ZzzzfLinb2ZzzzeLinb22Zzzz7bLinb5Zzzz3Zyyy4Zzzz2dZyyy3Zzzz",
   "9Zyyy4fGrek1ZzzzdZyyy3Zzzz1Grek2fZzzz2dZyyy1Zinh82Zzzz1dLyci3Zzzz31CarifZzzz1Zinh1bZyyy",
   "4Zzzz24Ital9Zzzz3Ital1bGoth5Zzzz2bPerm5Zzzz1eUgar1Zzzz1Ugar24Xpeo4ZzzzeXpeo2aZzzz50Dsrt",
   "30Shaw1eOsma2ZzzzaOsma6Zzzz24Osge4Zzzz24Osge4Zzzz28Elba8Zzzz34AghbbZzzz1AghbbVith1Zzzz",
   "fVith1Zzzz7Vith1Zzzz2Vith1ZzzzbVith1ZzzzfVith1Zzzz7Vith1Zzzz2Vith3Zzzz34TodrcZzzz137Lina",
   "9Zzzz16LinaaZzzz8Lina18Zzzz6Latn1Zzzz2aLatn1Zzzz9Latn45Zzzz6Cprt2Zzzz1Cprt1Zzzz2cCprt",
   "1Zzzz2Cprt3Zzzz1Cprt2Zzzz1Cprt16Armi1Zzzz9Armi20Palm1fNbat8Zzzz9Nbat30Zzzz13Hatr1Zzzz",
   "2Hatr5Zzzz5Hatr1cPhnx3Zzzz1Phnx1aLydi5Zzzz1Lydi1aSidt26Zzzz20Mero18Merc4Zzzz14Merc2Zzzz",
   "2eMerc4Khar1Zzzz2Khar5Zzzz8Khar1Zzzz3Khar1Zzzz1dKhar2Zzzz3Khar4ZzzzaKhar7Zzzz9Khar7Zzzz",
   "20Sarb20Narb20Zzzz27Mani4ZzzzcMani9Zzzz36Avst3Zzzz7Avst16Prti2Zzzz8Prti13Phli5Zzzz8Phli",
   "12Phlp7Zzzz4PhlpcZzzz7Phlp50Zzzz49Orkh37Zzzz33HungdZzzz33Hung7Zzzz6Hung28Rohg8ZzzzaRohg",
   "6Zzzz26Gara3Zzzz1dGara8Zzzz2Garad0Zzzz1fArab1Zzzz2aYezi1Zzzz3Yezi2Zzzz2Yezi10Zzzz6Arab",
   "8Zzzz9Arab21Zzzz6Arab28Sogo8Zzzz2aSogd16Zzzz1aOugr26Zzzz1cChrs14Zzzz17Elym9Zzzz4eBrah",
   "4Zzzz24Brah9Zzzz1Brah43KthiaZzzz1Kthi2Zzzz19Sora7ZzzzaSora6Zzzz35Cakm1Zzzz12Cakm8Zzzz",
   "27Mahj9Zzzz60Shrd1Zzzz14SinhbZzzz12Khoj1Zzzz2fKhoj3eZzzz7Mult1Zzzz1Mult1Zzzz4Mult1Zzzz",
   "fMult1ZzzzbMult6Zzzz3bSind5ZzzzaSind6Zzzz4Gran1Zzzz8Gran2Zzzz2Gran2Zzzz16Gran1Zzzz7Gran",
   "1Zzzz2Gran1Zzzz5Gran1Zzzz1Zinh9Gran2Zzzz2Gran2Zzzz3Gran2Zzzz1Gran6Zzzz1Gran5Zzzz7Gran",
   "2Zzzz7Gran3Zzzz5GranbZzzzaTutg1Zzzz1Tutg2Zzzz1Tutg1Zzzz26Tutg1ZzzzaTutg1Zzzz1Tutg2Zzzz",
   "1Tutg1Zzzz4Tutg1ZzzzaTutg1Zzzz2Tutg8Zzzz2Tutg1dZzzz5cNewa1Zzzz5Newa1eZzzz48Tirh8Zzzz",
   "aTirha6Zzzz36Sidd2Zzzz26Sidd22Zzzz45ModibZzzzaModi6ZzzzdMong13Zzzz3aTakr6ZzzzaTakr6Zzzz",
   "14Mymr1cZzzz1bAhom2ZzzzfAhom4Zzzz17Ahomb9Zzzz3cDogr64Zzzz53WaracZzzz1Wara7Diak2Zzzz1Diak",
   "2Zzzz8Diak1Zzzz2Diak1Zzzz1eDiak1Zzzz2Diak2ZzzzcDiak9ZzzzaDiak46Zzzz8Nand2Zzzz2eNand2Zzzz",
   "bNand1bZzzz48Zanb8Zzzz53SoyodZzzz10Cans39Pauc7ZzzzaDeva56Zzzz8Shrd58Zzzz22SunueZzzzaSunu",
   "6Zzzz9Bhks1Zzzz2dBhks1ZzzzeBhksaZzzz1dBhks3Zzzz20Marc2Zzzz16Marc1ZzzzeMarc49Zzzz7Gonm",
   "1Zzzz2Gonm1Zzzz2cGonm3Zzzz1Gonm1Zzzz2Gonm1Zzzz9Gonm8ZzzzaGonm6Zzzz6Gong1Zzzz2Gong1Zzzz",
   "25Gong1Zzzz2Gong1Zzzz6Gong7ZzzzaGong6Zzzz2cTols4ZzzzaTolsf6Zzzz19Maka7Zzzz11Kawi1Zzzz",
   "29Kawi3Zzzz1dKawi55Zzzz1LisufZzzz32TamldZzzz1Taml39aXsux66Zzzz6fXsux1Zzzz5XsuxbZzzz",
   "c4Xsuxa4cZzzz63CpmndZzzz456EgypaZzzzf9bEgyp5Zzzz247Hluw1ab9Zzzz3aGukh6c6Zzzz239Bamu7Zzzz",
   "1fMroo1ZzzzaMroo4Zzzz2Mroo4fTnsa1ZzzzaTnsa6Zzzz1eBass2Zzzz6BassaZzzz46HmngaZzzzaHmng",
   "1Zzzz7Hmng1Zzzz15Hmng5Zzzz13Hmng1b0Zzzz3aKraic6Zzzz5bMedf5Zzzz19Berf2Zzzz19Berf2cZzzz",
   "4bPlrd4Zzzz39Plrd7Zzzz11Plrd40Zzzz1Tang1Nshu2Hani1KitsbZzzz7Hani9Zzzz1b00Tang1d6Kits",
   "29Zzzz1Kits1fTang61Zzzz73Tang21fdZzzz4Kana1Zzzz7Kana1Zzzz2Kana1Zzzz1Kana11fHira3Kana",
   "fZzzz1Hira1dZzzz3Hira2Zzzz1KanaeZzzz4Kana8Zzzz18cNshu904Zzzz6bDupl5ZzzzdDupl3Zzzz9Dupl",
   "7ZzzzaDupl2Zzzz4Dupl4Zyyyf5cZzzzfdZyyy3Zzzz1b4Zyyy6Zzzz17ZyyyfZzzz11ZyyyfZzzz2eZinh2Zzzz",
   "17Zinh9Zzzz74Zyyy3cZzzzf6ZyyyaZzzz27Zyyy2Zzzz3eZyyy3Zinh11Zyyy8Zinh2Zyyy7Zinh1eZyyy4Zinh",
   "3dZyyy15Zzzz46Grek7aZzzz14ZyyycZzzz14ZyyycZzzz57Zyyy9Zzzz19Zyyy87Zzzz55Zyyy1Zzzz47Zyyy",
   "1Zzzz2Zyyy2Zzzz1Zyyy2Zzzz2Zyyy2Zzzz4Zyyy1ZzzzcZyyy1Zzzz1Zyyy1Zzzz7Zyyy1Zzzz41Zyyy1Zzzz",
   "4Zyyy2Zzzz8Zyyy1Zzzz7Zyyy1Zzzz1cZyyy1Zzzz4Zyyy1Zzzz5Zyyy1Zzzz1Zyyy3Zzzz7Zyyy1Zzzz154Zyyy",
   "2Zzzz124Zyyy2Zzzz32Zyyy28cSgnwfZzzz5Sgnw1ZzzzfSgnw450Zzzz1fLatn6Zzzz6Latnd5Zzzz7Glag",
   "1Zzzz11Glag2Zzzz7Glag1Zzzz2Glag1Zzzz5Glag5Zzzz3eCyrl21Zzzz1Cyrl70Zzzz2dHmnp3ZzzzeHmnp",
   "2ZzzzaHmnp4Zzzz2Hmnp140Zzzz1fToto11Zzzz3aWcho5Zzzz1Wcho1d0Zzzz2aNagmd6Zzzz2bOnao4Zzzz",
   "1Onaoc0Zzzz1fTayo1Zzzz16Tayo8Zzzz2Tayoe0Zzzz7Ethi1Zzzz4Ethi1Zzzz2Ethi1ZzzzfEthi1Zzzz",
   "c5Mend2Zzzz10Mend29Zzzz4cAdlm4ZzzzaAdlm4Zzzz2Adlm311Zzzz44Zyyy4cZzzz3dZyyyc2Zzzz4Arab",
   "1Zzzz1bArab1Zzzz2Arab1Zzzz1Arab2Zzzz1Arab1ZzzzaArab1Zzzz4Arab1Zzzz1Arab1Zzzz1Arab6Zzzz",
   "1Arab4Zzzz1Arab1Zzzz1Arab1Zzzz1Arab1Zzzz3Arab1Zzzz2Arab1Zzzz1Arab2Zzzz1Arab1Zzzz1Arab",
   "1Zzzz1Arab1Zzzz1Arab1Zzzz1Arab1Zzzz2Arab1Zzzz1Arab2Zzzz4Arab1Zzzz7Arab1Zzzz4Arab1Zzzz",
   "4Arab1Zzzz1Arab1ZzzzaArab1Zzzz11Arab5Zzzz3Arab1Zzzz5Arab1Zzzz11Arab34Zzzz2Arab10eZzzz",
   "2cZyyy4Zzzz64ZyyycZzzzfZyyy2ZzzzfZyyy1ZzzzfZyyy1Zzzz25ZyyyaZzzzaeZyyy38Zzzz1aZyyy1Hira",
   "2ZyyydZzzz2cZyyy4Zzzz9Zyyy7Zzzz2ZyyyeZzzz6Zyyy9aZzzz3d9Zyyy3Zzzz11Zyyy3ZzzzdZyyy3Zzzz",
   "daZyyy6ZzzzcZyyy4Zzzz1ZyyyfZzzzcZyyy4Zzzz38Zyyy8ZzzzaZyyy6Zzzz28Zyyy8Zzzz1eZyyy2Zzzz",
   "cZyyy4Zzzz2ZyyyeZzzz9Zyyy27Zzzz158Zyyy8ZzzzeZyyy2ZzzzdZyyy3ZzzzbZyyy3Zzzz39Zyyy1Zzzz",
   "1Zyyy4Zzzz10Zyyy2ZzzzcZyyy4ZzzzaZyyy7Zzzz93Zyyy1Zzzz67Zyyy405Zzzza6e0Hani20Zzzz111eHani",
   "2Zzzz168eHani2Zzzz1d31HanifZzzz26eHani9a2Zzzz21eHani5e2Zzzz134bHani5Zzzz212aHani",
   "acb87Zzzz1Zyyy1eZzzz60Zyyy80Zzzzf0Zinh"]

def scriptNames : List String :=
  ["Adlm=Adlam Ahom=Ahom Hluw=Anatolian_Hieroglyphs Arab=Arabic Armn=Armenian Avst=Avestan ",
   "Bali=Balinese Bamu=Bamum Bass=Bassa_Vah Batk=Batak Beng=Bengali Berf=Beria_Erfe ",
   "Bhks=Bhaiksuki Bopo=Bopomofo Brah=Brahmi Brai=Braille Bugi=Buginese Buhd=Buhid ",
   "Cans=Canadian_Aboriginal Cari=Carian Aghb=Caucasian_Albanian Cakm=Chakma Cham=Cham ",
   "Cher=Cherokee Chrs=Chorasmian Zyyy=Common Copt=Coptic Xsux=Cuneiform Cprt=Cypriot ",
   "Cpmn=Cypro_Minoan Cyrl=Cyrillic Dsrt=Deseret Deva=Devanagari Diak=Dives_Akuru ",
   "Dogr=Dogra Dupl=Duployan Egyp=Egyptian_Hieroglyphs Elba=Elbasan Elym=Elymaic ",
   "Ethi=Ethiopic Gara=Garay Geor=Georgian Glag=Glagolitic Goth=Gothic Gran=Grantha ",
   "Grek=Greek Gujr=Gujarati Gong=Gunjala_Gondi Guru=Gurmukhi Gukh=Gurung_Khema Hani=Han ",
   "Hang=Hangul Rohg=Hanifi_Rohingya Hano=Hanunoo Hatr=Hatran Hebr=Hebrew Hira=Hiragana ",
   "Armi=Imperial_Aramaic Zinh=Inherited Phli=Inscriptional_Pahlavi ",
   "Prti=Inscriptional_Parthian Java=Javanese Kthi=Kaithi Knda=Kannada Kana=Katakana ",
   "Kawi=Kawi Kali=Kayah_Li Khar=Kharoshthi Kits=Khitan_Small_Script Khmr=Khmer Khoj=Khojki ",
   "Sind=Khudawadi Krai=Kirat_Rai Laoo=Lao Latn=Latin Lepc=Lepcha Limb=Limbu Lina=Linear_A ",
   "Linb=Linear_B Lisu=Lisu Lyci=Lycian Lydi=Lydian Mahj=Mahajani Maka=Makasar ",
   "Mlym=Malayalam Mand=Mandaic Mani=Manichaean Marc=Marchen Gonm=Masaram_Gondi ",
   "Medf=Medefaidrin Mtei=Meetei_Mayek Mend=Mende_Kikakui Merc=Meroitic_Cursive ",
   "Mero=Meroitic_Hieroglyphs Plrd=Miao Modi=Modi Mong=Mongolian Mroo=Mro Mult=Multani ",
   "Mymr=Myanmar Nbat=Nabataean Nagm=Nag_Mundari Nand=Nandinagari Talu=New_Tai_Lue ",
   "Newa=Newa Nkoo=Nko Nshu=Nushu Hmnp=Nyiakeng_Puachue_Hmong Ogam=Ogham Olck=Ol_Chiki ",
   "Onao=Ol_Onal Hung=Old_Hungarian Ital=Old_Italic Narb=Old_North_Arabian Perm=Old_Permic ",
   "Xpeo=Old_Persian Sogo=Old_Sogdian Sarb=Old_South_Arabian Orkh=Old_Turkic ",
   "Ougr=Old_Uyghur Orya=Oriya Osge=Osage Osma=Osmanya Hmng=Pahawh_Hmong Palm=Palmyrene ",
   "Pauc=Pau_Cin_Hau Phag=Phags_Pa Phnx=Phoenician Phlp=Psalter_Pahlavi Rjng=Rejang ",
   "Runr=Runic Samr=Samaritan Saur=Saurashtra Shrd=Sharada Shaw=Shavian Sidd=Siddham ",
   "Sidt=Sidetic Sgnw=SignWriting Sinh=Sinhala Sogd=Sogdian Sora=Sora_Sompeng Soyo=Soyombo ",
   "Sund=Sundanese Sunu=Sunuwar Sylo=Syloti_Nagri Syrc=Syriac Tglg=Tagalog Tagb=Tagbanwa ",
   "Tale=Tai_Le Lana=Tai_Tham Tavt=Tai_Viet Tayo=Tai_Yo Takr=Takri Taml=Tamil Tnsa=Tangsa ",
   "Tang=Tangut Telu=Telugu Thaa=Thaana Thai=Thai Tibt=Tibetan Tfng=Tifinagh Tirh=Tirhuta ",
   "Todr=Todhri Tols=Tolong_Siki Toto=Toto Tutg=Tulu_Tigalari Ugar=Ugaritic Vaii=Vai ",
   "Vith=Vithkuqi Wcho=Wancho Wara=Warang_Citi Yezi=Yezidi Yiii=Yi Zanb=Zanabazar_Square "]

def scriptTable : Array Run :=
  (readRuns 4 scriptRuns).toArray

def scriptsByName : List (String × String) :=
  scriptNames.flatMap fun line =>
    (line.splitOn " ").filterMap fun entry =>
      match entry.splitOn "=" with
      | [code, name] => some (name, code)
      | _ => none

end Unicode
end TaintTrace
