import ApiClient.Unicode.Category
import ApiClient.Unicode.Normal

/-!
# ApiClient.Url.Domain.Mapping

The form in which the characters of domains are compared.

Design points:

* Capitals become small letters, variants of a character become that character, and characters that
  do not count are dropped. What is equivalent to another text takes its composed form.
* A few characters stay that have no place in a domain; `isAllowed` tells them from the others.
-/

namespace ApiClient.Domain

open Unicode

/-- The images of characters beyond ASCII that are variants of others. -/
def variants : CodeMap := .ofLines
  ["a0>20 a8>20.308 aa>61 af>20.304 b2>32,33,20.301,3bc b8>20.327,31,6f",
   "bc>31.2044.34,31.2044.32,33.2044.34 c0-d6>e0 d8-de>f8 100-12e/2>101 130>69.307",
   "132>69.6a,69.6a,135 136>137 139-13d/2>13a 13f>6c.b7,6c.b7 141-147/2>142 149>2bc.6e",
   "14a-176/2>14b 178>ff 179-17d/2>17a 17f>73 181>253,183 184>185 186>254,188 189>256,257,18c",
   "18e>1dd,259,25b,192 193>260,263 196>269,268,199 19c>26f,272 19f>275 1a0-1a4/2>1a1 1a6>280,1a8",
   "1a9>283 1ac>1ad 1ae>288,1b0 1b1>28a,28b,1b4 1b5>1b6 1b7>292,1b9 1bc>1bd",
   "1c4>64.17e,64.17e,64.17e,6c.6a,6c.6a,6c.6a,6e.6a,6e.6a,6e.6a 1cd-1db/2>1ce 1de-1ee/2>1df",
   "1f1>64.7a,64.7a,64.7a,1f5 1f6>195,1bf 1f8-21e/2>1f9 220>19e 222-232/2>223 23a>2c65,23c",
   "23d>19a,2c66 241>242 243>180,289,28c 246-24e/2>247 2b0>68,266,6a,72,279,27b,281,77,79",
   "2d8>20.306,20.307,20.30a,20.328,20.303,20.30b 2e0>263,6c,73,78,295 345>3b9 370>371 372>373",
   "376>377 37a>20.3b9 37f>3f3 384>20.301,20.308.301,3ac 388-38a>3ad 38c>3cc 38e>3cd,3ce",
   "391-3a1>3b1 3a3-3ab>3c3 3cf>3d7,3b2,3b8,3c5,3cd,3cb,3c6,3c0 3d8-3ee/2>3d9 3f0>3ba,3c1,3c3",
   "3f4>3b8,3b5 3f7>3f8 3f9>3c3,3fb 3fd-3ff>37b 400-40f>450 410-42f>430 460-480/2>461",
   "48a-4be/2>48b 4c0>4cf 4c1-4cd/2>4c2 4d0-52e/2>4d1 531-556>561 587>565.582",
   "675>627.674,648.674,6c7.674,64a.674 e33>e4d.e32 eb3>ecd.eb2 edc>eab.e99,eab.ea1 f0c>f0b",
   "f77>fb2.f71.f80 f79>fb3.f71.f80 10a0-10c5>2d00 10c7>2d27 10cd>2d2d 10fc>10dc 13f8-13fd>13f0",
   "1c80>432,434,43e,441,442,442,44a,463,a64b,1c8a 1c90-1cba>10d0 1cbd-1cbf>10fd 1d2c>61,e6,62",
   "1d30>64,65,1dd 1d33-1d3a>67 1d3c>6f,223,70,72,74,75,77,61,250,251,1d02,62,64,65,259,25b,25c,67",
   "1d4f>6b,6d,14b,6f,254,1d16,1d17,70,74,75,1d1d,26f,76,1d25 1d5d-1d5f>3b2",
   "1d60>3c6,3c7,69,72,75,76,3b2,3b3,3c1,3c6,3c7 1d78>43d 1d9b>252,63,255,f0,25c,66,25f,261,265",
   "1da4-1da6>268 1da7>1d7b,29d,26d,1d85,29f,271,270 1dae-1db1>272",
   "1db2>278,282,283,1ab,289,28a,1d1c,28b,28c,7a 1dbc-1dbe>290 1dbf>3b8 1e00-1e94/2>1e01",
   "1e9a>61.2be,1e61 1e9e>df 1ea0-1efe/2>1ea1 1f08-1f0f>1f00 1f18-1f1d>1f10 1f28-1f2f>1f20",
   "1f38-1f3f>1f30 1f48-1f4d>1f40 1f59-1f5f/2>1f51 1f68-1f6f>1f60",
   "1f80>1f00.3b9,1f01.3b9,1f02.3b9,1f03.3b9,1f04.3b9,1f05.3b9,1f06.3b9,1f07.3b9",
   "1f88>1f00.3b9,1f01.3b9,1f02.3b9,1f03.3b9,1f04.3b9,1f05.3b9,1f06.3b9,1f07.3b9",
   "1f90>1f20.3b9,1f21.3b9,1f22.3b9,1f23.3b9,1f24.3b9,1f25.3b9,1f26.3b9,1f27.3b9",
   "1f98>1f20.3b9,1f21.3b9,1f22.3b9,1f23.3b9,1f24.3b9,1f25.3b9,1f26.3b9,1f27.3b9",
   "1fa0>1f60.3b9,1f61.3b9,1f62.3b9,1f63.3b9,1f64.3b9,1f65.3b9,1f66.3b9,1f67.3b9",
   "1fa8>1f60.3b9,1f61.3b9,1f62.3b9,1f63.3b9,1f64.3b9,1f65.3b9,1f66.3b9,1f67.3b9",
   "1fb2>1f70.3b9,3b1.3b9,3ac.3b9 1fb7>1fb6.3b9,1fb0,1fb1,1f70,3ac,3b1.3b9,20.313",
   "1fbf>20.313,20.342,20.308.342,1f74.3b9,3b7.3b9,3ae.3b9",
   "1fc7>1fc6.3b9,1f72,3ad,1f74,3ae,3b7.3b9,20.313.300,20.313.301,20.313.342",
   "1fd8>1fd0,1fd1,1f76,3af 1fdd>20.314.300,20.314.301,20.314.342",
   "1fe8>1fe0,1fe1,1f7a,3cd,1fe5,20.308.300,20.308.301 1ff2>1f7c.3b9,3c9.3b9,3ce.3b9",
   "1ff7>1ff6.3b9,1f78,3cc,1f7c,3ce,3c9.3b9,20.301,20.314 2000>20,20,20,20,20,20,20,20,20,20,20",
   "2011>2010 2017>20.333 202f>20 2033>2032.2032,2032.2032.2032 2036>2035.2035,2035.2035.2035",
   "203c>21.21 203e>20.305 2047>3f.3f,3f.21,21.3f 2057>2032.2032.2032.2032 205f>20 2070>30,69",
   "2074-2079>34 207a>2b,2212,3d,28,29,6e 2080-2089>30 208a>2b,2212,3d,28,29",
   "2090>61,65,6f,78,259,68 2096-2099>6b 209a>70,73,74 20a8>72.73 2100>61.2f.63,61.2f.73,63,b0.63",
   "2105>63.2f.6f,63.2f.75,25b 2109>b0.66,67,68,68,68,68,127,69,69,6c,6c 2115>6e,6e.6f",
   "2119-211b>70 211c>72,72 2120>73.6d,74.65.6c,74.6d 2124>7a 2126>3c9 2128>7a 212a>6b,e5,62,63",
   "212f>65,65,66,214e,6d,6f 2135-2138>5d0 2139>69 213b>66.61.78,3c0,3b3,3b3,3c0,2211",
   "2145>64,64,65,69,6a 2150>31.2044.37,31.2044.39,31.2044.31.30,31.2044.33,32.2044.33,31.2044.35",
   "2156>32.2044.35,33.2044.35,34.2044.35,31.2044.36,35.2044.36,31.2044.38",
   "215c>33.2044.38,35.2044.38,37.2044.38,31.2044,69,69.69,69.69.69,69.76,76,76.69",
   "2166>76.69.69,76.69.69.69,69.78,78,78.69,78.69.69,6c,63,64,6d,69,69.69,69.69.69",
   "2173>69.76,76,76.69,76.69.69,76.69.69.69,69.78,78,78.69,78.69.69,6c,63,64,6d 2183>2184",
   "2189>30.2044.33 222c>222b.222b,222b.222b.222b 222f>222e.222e,222e.222e.222e 2460-2468>31",
   "2469>31.30,31.31,31.32,31.33,31.34,31.35,31.36,31.37,31.38,31.39,32.30,28.31.29",
   "2475>28.32.29,28.33.29,28.34.29,28.35.29,28.36.29,28.37.29,28.38.29,28.39.29",
   "247d>28.31.30.29,28.31.31.29,28.31.32.29,28.31.33.29,28.31.34.29,28.31.35.29",
   "2483>28.31.36.29,28.31.37.29,28.31.38.29,28.31.39.29,28.32.30.29",
   "249c>28.61.29,28.62.29,28.63.29,28.64.29,28.65.29,28.66.29,28.67.29,28.68.29",
   "24a4>28.69.29,28.6a.29,28.6b.29,28.6c.29,28.6d.29,28.6e.29,28.6f.29,28.70.29",
   "24ac>28.71.29,28.72.29,28.73.29,28.74.29,28.75.29,28.76.29,28.77.29,28.78.29",
   "24b4>28.79.29,28.7a.29 24b6-24cf>61 24d0-24e9>61 24ea>30 2a0c>222b.222b.222b.222b",
   "2a74>3a.3a.3d,3d.3d,3d.3d.3d 2c00-2c2f>2c30 2c60>2c61 2c62>26b,1d7d,27d 2c67-2c6b/2>2c68",
   "2c6d>251,271,250,252 2c72>2c73 2c75>2c76 2c7c>6a,76,23f,240 2c80-2ce2/2>2c81 2ceb>2cec",
   "2ced>2cee 2cf2>2cf3 2d6f>2d61 2e9f>6bcd 2ef3>9f9f",
   "2f00>4e00,4e28,4e36,4e3f,4e59,4e85,4e8c,4ea0,4eba,513f,5165,516b,5182,5196,51ab",
   "2f0f>51e0,51f5,5200,529b,52f9,5315,531a,5338,5341,535c,5369,5382,53b6,53c8,53e3",
   "2f1e>56d7,571f,58eb,5902,590a,5915,5927,5973,5b50,5b80,5bf8,5c0f,5c22,5c38,5c6e",
   "2f2d>5c71,5ddb,5de5,5df1,5dfe,5e72,5e7a,5e7f,5ef4,5efe,5f0b,5f13,5f50,5f61,5f73",
   "2f3c>5fc3,6208,6236,624b,652f,6534,6587,6597,65a4,65b9,65e0,65e5,66f0,6708,6728",
   "2f4b>6b20,6b62,6b79,6bb3,6bcb,6bd4,6bdb,6c0f,6c14,6c34,706b,722a,7236,723b,723f",
   "2f5a>7247,7259,725b,72ac,7384,7389,74dc,74e6,7518,751f,7528,7530,758b,7592,7676",
   "2f69>767d,76ae,76bf,76ee,77db,77e2,77f3,793a,79b8,79be,7a74,7acb,7af9,7c73,7cf8",
   "2f78>7f36,7f51,7f8a,7fbd,8001,800c,8012,8033,807f,8089,81e3,81ea,81f3,81fc,820c",
   "2f87>821b,821f,826e,8272,8278,864d,866b,8840,884c,8863,897e,898b,89d2,8a00,8c37",
   "2f96>8c46,8c55,8c78,8c9d,8d64,8d70,8db3,8eab,8eca,8f9b,8fb0,8fb5,9091,9149,91c6",
   "2fa5>91cc,91d1,9577,9580,961c,96b6,96b9,96e8,9751,975e,9762,9769,97cb,97ed,97f3",
   "2fb4>9801,98a8,98db,98df,9996,9999,99ac,9aa8,9ad8,9adf,9b25,9b2f,9b32,9b3c,9b5a",
   "2fc3>9ce5,9e75,9e7f,9ea5,9ebb,9ec3,9ecd,9ed1,9ef9,9efd,9f0e,9f13,9f20,9f3b,9f4a",
   "2fd2>9f52,9f8d,9f9c,9fa0 3000>20 3002>2e 3036>3012 3038>5341,5344,5345 309b>20.3099,20.309a",
   "309f>3088.308a 30ff>30b3.30c8 3131>1100,1101,11aa,1102,11ac,11ad 3137-3139>1103 313a-313f>11b0",
   "3140>111a 3141-3143>1106 3144>1121 3145-314e>1109 314f-3163>1161",
   "3165>1114,1115,11c7,11c8,11cc,11ce,11d3,11d7,11d9,111c,11dd,11df,111d,111e,1120",
   "3174>1122,1123,1127,1129 3178-317c>112b 317d>1132,1136,1140,1147,114c,11f1,11f2 3184-3186>1157",
   "3187>1184,1185,1188,1191,1192,1194,119e,11a1",
   "3192>4e00,4e8c,4e09,56db,4e0a,4e2d,4e0b,7532,4e59,4e19,4e01,5929,5730,4eba",
   "3200>28.1100.29,28.1102.29,28.1103.29,28.1105.29,28.1106.29,28.1107.29",
   "3206>28.1109.29,28.110b.29,28.110c.29,28.110e.29,28.110f.29,28.1110.29",
   "320c>28.1111.29,28.1112.29,28.ac00.29,28.b098.29,28.b2e4.29,28.b77c.29",
   "3212>28.b9c8.29,28.bc14.29,28.c0ac.29,28.c544.29,28.c790.29,28.cc28.29",
   "3218>28.ce74.29,28.d0c0.29,28.d30c.29,28.d558.29,28.c8fc.29,28.c624.c804.29",
   "321e>28.c624.d6c4.29 3220>28.4e00.29,28.4e8c.29,28.4e09.29,28.56db.29,28.4e94.29,28.516d.29",
   "3226>28.4e03.29,28.516b.29,28.4e5d.29,28.5341.29,28.6708.29,28.706b.29",
   "322c>28.6c34.29,28.6728.29,28.91d1.29,28.571f.29,28.65e5.29,28.682a.29",
   "3232>28.6709.29,28.793e.29,28.540d.29,28.7279.29,28.8ca1.29,28.795d.29",
   "3238>28.52b4.29,28.4ee3.29,28.547c.29,28.5b66.29,28.76e3.29,28.4f01.29",
   "323e>28.8cc7.29,28.5354.29,28.796d.29,28.4f11.29,28.81ea.29,28.81f3.29,554f",
   "3245>5e7c,6587,7b8f",
   "3250>70.74.65,32.31,32.32,32.33,32.34,32.35,32.36,32.37,32.38,32.39,33.30,33.31",
   "325c>33.32,33.33,33.34,33.35,1100,1102,1103 3263-3265>1105 3266>1109,110b,110c 3269-326d>110e",
   "326e>ac00,b098,b2e4,b77c,b9c8,bc14,c0ac,c544,c790,cc28,ce74,d0c0,d30c,d558",
   "327c>cc38.ace0,c8fc.c758,c6b0",
   "3280>4e00,4e8c,4e09,56db,4e94,516d,4e03,516b,4e5d,5341,6708,706b,6c34,6728,91d1",
   "328f>571f,65e5,682a,6709,793e,540d,7279,8ca1,795d,52b4,79d8,7537,5973,9069,512a",
   "329e>5370,6ce8,9805,4f11,5199,6b63,4e0a,4e2d,4e0b,5de6,53f3,533b,5b97,5b66,76e3",
   "32ad>4f01,8cc7,5354,591c,33.36,33.37,33.38,33.39,34.30,34.31,34.32,34.33,34.34",
   "32ba>34.35,34.36,34.37,34.38,34.39,35.30,31.6708,32.6708,33.6708,34.6708",
   "32c4>35.6708,36.6708,37.6708,38.6708,39.6708,31.30.6708,31.31.6708,31.32.6708",
   "32cc>68.67,65.72.67,65.76,6c.74.64,30a2,30a4,30a6,30a8,30aa,30ab,30ad,30af,30b1",
   "32d9>30b3,30b5,30b7,30b9,30bb,30bd,30bf,30c1,30c4,30c6,30c8 32e4-32e9>30ca",
   "32ea>30d2,30d5,30d8,30db 32ee-32f2>30de 32f3>30e4,30e6 32f5-32fa>30e8 32fb-32fe>30ef",
   "32ff>4ee4.548c,30a2.30d1.30fc.30c8,30a2.30eb.30d5.30a1,30a2.30f3.30da.30a2",
   "3303>30a2.30fc.30eb,30a4.30cb.30f3.30b0,30a4.30f3.30c1,30a6.30a9.30f3",
   "3307>30a8.30b9.30af.30fc.30c9,30a8.30fc.30ab.30fc,30aa.30f3.30b9,30aa.30fc.30e0",
   "330b>30ab.30a4.30ea,30ab.30e9.30c3.30c8,30ab.30ed.30ea.30fc,30ac.30ed.30f3",
   "330f>30ac.30f3.30de,30ae.30ac,30ae.30cb.30fc,30ad.30e5.30ea.30fc",
   "3313>30ae.30eb.30c0.30fc,30ad.30ed,30ad.30ed.30b0.30e9.30e0",
   "3316>30ad.30ed.30e1.30fc.30c8.30eb,30ad.30ed.30ef.30c3.30c8,30b0.30e9.30e0",
   "3319>30b0.30e9.30e0.30c8.30f3,30af.30eb.30bc.30a4.30ed,30af.30ed.30fc.30cd",
   "331c>30b1.30fc.30b9,30b3.30eb.30ca,30b3.30fc.30dd,30b5.30a4.30af.30eb",
   "3320>30b5.30f3.30c1.30fc.30e0,30b7.30ea.30f3.30b0,30bb.30f3.30c1,30bb.30f3.30c8",
   "3324>30c0.30fc.30b9,30c7.30b7,30c9.30eb,30c8.30f3,30ca.30ce,30ce.30c3.30c8",
   "332a>30cf.30a4.30c4,30d1.30fc.30bb.30f3.30c8,30d1.30fc.30c4,30d0.30fc.30ec.30eb",
   "332e>30d4.30a2.30b9.30c8.30eb,30d4.30af.30eb,30d4.30b3,30d3.30eb",
   "3332>30d5.30a1.30e9.30c3.30c9,30d5.30a3.30fc.30c8,30d6.30c3.30b7.30a7.30eb",
   "3335>30d5.30e9.30f3,30d8.30af.30bf.30fc.30eb,30da.30bd,30da.30cb.30d2",
   "3339>30d8.30eb.30c4,30da.30f3.30b9,30da.30fc.30b8,30d9.30fc.30bf",
   "333d>30dd.30a4.30f3.30c8,30dc.30eb.30c8,30db.30f3,30dd.30f3.30c9,30db.30fc.30eb",
   "3342>30db.30fc.30f3,30de.30a4.30af.30ed,30de.30a4.30eb,30de.30c3.30cf",
   "3346>30de.30eb.30af,30de.30f3.30b7.30e7.30f3,30df.30af.30ed.30f3,30df.30ea",
   "334a>30df.30ea.30d0.30fc.30eb,30e1.30ac,30e1.30ac.30c8.30f3,30e1.30fc.30c8.30eb",
   "334e>30e4.30fc.30c9,30e4.30fc.30eb,30e6.30a2.30f3,30ea.30c3.30c8.30eb,30ea.30e9",
   "3353>30eb.30d4.30fc,30eb.30fc.30d6.30eb,30ec.30e0,30ec.30f3.30c8.30b2.30f3",
   "3357>30ef.30c3.30c8,30.70b9,31.70b9,32.70b9,33.70b9,34.70b9,35.70b9,36.70b9",
   "335f>37.70b9,38.70b9,39.70b9,31.30.70b9,31.31.70b9,31.32.70b9,31.33.70b9",
   "3366>31.34.70b9,31.35.70b9,31.36.70b9,31.37.70b9,31.38.70b9,31.39.70b9",
   "336c>32.30.70b9,32.31.70b9,32.32.70b9,32.33.70b9,32.34.70b9,68.70.61,64.61",
   "3373>61.75,62.61.72,6f.76,70.63,64.6d,64.6d.32,64.6d.33,69.75,5e73.6210",
   "337c>662d.548c,5927.6b63,660e.6cbb,682a.5f0f.4f1a.793e,70.61,6e.61,3bc.61,6d.61",
   "3384>6b.61,6b.62,6d.62,67.62,63.61.6c,6b.63.61.6c,70.66,6e.66,3bc.66,3bc.67",
   "338e>6d.67,6b.67,68.7a,6b.68.7a,6d.68.7a,67.68.7a,74.68.7a,3bc.6c,6d.6c,64.6c",
   "3398>6b.6c,66.6d,6e.6d,3bc.6d,6d.6d,63.6d,6b.6d,6d.6d.32,63.6d.32,6d.32",
   "33a2>6b.6d.32,6d.6d.33,63.6d.33,6d.33,6b.6d.33,6d.2215.73,6d.2215.73.32,70.61",
   "33aa>6b.70.61,6d.70.61,67.70.61,72.61.64,72.61.64.2215.73,72.61.64.2215.73.32",
   "33b0>70.73,6e.73,3bc.73,6d.73,70.76,6e.76,3bc.76,6d.76,6b.76,6d.76,70.77,6e.77",
   "33bc>3bc.77,6d.77,6b.77,6d.77,6b.3c9,6d.3c9 33c3>62.71,63.63,63.64,63.2215.6b.67",
   "33c8>64.62,67.79,68.61,68.70,69.6e,6b.6b,6b.6d,6b.74,6c.6d,6c.6e,6c.6f.67,6c.78",
   "33d4>6d.62,6d.69.6c,6d.6f.6c,70.68",
   "33d9>70.70.6d,70.72,73.72,73.76,77.62,76.2215.6d,61.2215.6d,31.65e5,32.65e5",
   "33e2>33.65e5,34.65e5,35.65e5,36.65e5,37.65e5,38.65e5,39.65e5,31.30.65e5",
   "33ea>31.31.65e5,31.32.65e5,31.33.65e5,31.34.65e5,31.35.65e5,31.36.65e5",
   "33f0>31.37.65e5,31.38.65e5,31.39.65e5,32.30.65e5,32.31.65e5,32.32.65e5",
   "33f6>32.33.65e5,32.34.65e5,32.35.65e5,32.36.65e5,32.37.65e5,32.38.65e5",
   "33fc>32.39.65e5,33.30.65e5,33.31.65e5,67.61.6c a640-a66c/2>a641 a680-a69a/2>a681 a69c>44a,44c",
   "a722-a72e/2>a723 a732-a76e/2>a733 a770>a76f a779>a77a a77b>a77c a77d>1d79 a77e-a786/2>a77f",
   "a78b>a78c a78d>265 a790>a791 a792>a793 a796-a7a8/2>a797 a7aa>266,25c,261,26c,26a",
   "a7b0>29e,287,29d,ab53 a7b4-a7c2/2>a7b5 a7c4>a794,282,1d8e,a7c8 a7c9>a7ca a7cb>264",
   "a7cc-a7da/2>a7cd a7dc>19b a7f1>73,63,66,71,a7f6 a7f8>127,153 ab5c>a727,ab37,26b,ab52 ab69>28d",
   "ab70-abbf>13a0 fb00>66.66,66.69,66.6c,66.66.69,66.66.6c,73.74,73.74",
   "fb13>574.576,574.565,574.56b,57e.576,574.56d fb20>5e2,5d0,5d3,5d4 fb24-fb26>5db",
   "fb27>5e8,5ea,2b fb4f>5d0.5dc,671,671,67b,67b,67b,67b,67e,67e,67e,67e,680,680,680,680,67a,67a",
   "fb60>67a,67a,67f,67f,67f,67f,679,679,679,679,6a4,6a4,6a4,6a4,6a6,6a6,6a6,6a6",
   "fb72>684,684,684,684,683,683,683,683,686,686,686,686,687,687,687,687,68d,68d",
   "fb84>68c,68c,68e,68e,688,688,698,698,691,691,6a9,6a9,6a9,6a9,6af,6af,6af,6af",
   "fb96>6b3,6b3,6b3,6b3,6b1,6b1,6b1,6b1,6ba,6ba,6bb,6bb,6bb,6bb,6c0,6c0,6c1,6c1",
   "fba8>6c1,6c1,6be,6be,6be,6be,6d2,6d2,6d3,6d3",
   "fbd3>6ad,6ad,6ad,6ad,6c7,6c7,6c6,6c6,6c8,6c8,6c7.674,6cb,6cb,6c5,6c5,6c9,6c9",
   "fbe4>6d0,6d0,6d0,6d0,649,649,626.627,626.627,626.6d5,626.6d5,626.648,626.648",
   "fbf0>626.6c7,626.6c7,626.6c6,626.6c6,626.6c8,626.6c8,626.6d0,626.6d0,626.6d0",
   "fbf9>626.649,626.649,626.649,6cc,6cc,6cc,6cc,626.62c,626.62d,626.645,626.649",
   "fc04>626.64a,628.62c,628.62d,628.62e,628.645,628.649,628.64a,62a.62c,62a.62d",
   "fc0d>62a.62e,62a.645,62a.649,62a.64a,62b.62c,62b.645,62b.649,62b.64a,62c.62d",
   "fc16>62c.645,62d.62c,62d.645,62e.62c,62e.62d,62e.645,633.62c,633.62d,633.62e",
   "fc1f>633.645,635.62d,635.645,636.62c,636.62d,636.62e,636.645,637.62d,637.645",
   "fc28>638.645,639.62c,639.645,63a.62c,63a.645,641.62c,641.62d,641.62e,641.645",
   "fc31>641.649,641.64a,642.62d,642.645,642.649,642.64a,643.627,643.62c,643.62d",
   "fc3a>643.62e,643.644,643.645,643.649,643.64a,644.62c,644.62d,644.62e,644.645",
   "fc43>644.649,644.64a,645.62c,645.62d,645.62e,645.645,645.649,645.64a,646.62c",
   "fc4c>646.62d,646.62e,646.645,646.649,646.64a,647.62c,647.645,647.649,647.64a",
   "fc55>64a.62c,64a.62d,64a.62e,64a.645,64a.649,64a.64a,630.670,631.670,649.670",
   "fc5e>20.64c.651,20.64d.651,20.64e.651,20.64f.651,20.650.651,20.651.670,626.631",
   "fc65>626.632,626.645,626.646,626.649,626.64a,628.631,628.632,628.645,628.646",
   "fc6e>628.649,628.64a,62a.631,62a.632,62a.645,62a.646,62a.649,62a.64a,62b.631",
   "fc77>62b.632,62b.645,62b.646,62b.649,62b.64a,641.649,641.64a,642.649,642.64a",
   "fc80>643.627,643.644,643.645,643.649,643.64a,644.645,644.649,644.64a,645.627",
   "fc89>645.645,646.631,646.632,646.645,646.646,646.649,646.64a,649.670,64a.631",
   "fc92>64a.632,64a.645,64a.646,64a.649,64a.64a,626.62c,626.62d,626.62e,626.645",
   "fc9b>626.647,628.62c,628.62d,628.62e,628.645,628.647,62a.62c,62a.62d,62a.62e",
   "fca4>62a.645,62a.647,62b.645,62c.62d,62c.645,62d.62c,62d.645,62e.62c,62e.645",
   "fcad>633.62c,633.62d,633.62e,633.645,635.62d,635.62e,635.645,636.62c,636.62d",
   "fcb6>636.62e,636.645,637.62d,638.645,639.62c,639.645,63a.62c,63a.645,641.62c",
   "fcbf>641.62d,641.62e,641.645,642.62d,642.645,643.62c,643.62d,643.62e,643.644",
   "fcc8>643.645,644.62c,644.62d,644.62e,644.645,644.647,645.62c,645.62d,645.62e",
   "fcd1>645.645,646.62c,646.62d,646.62e,646.645,646.647,647.62c,647.645,647.670",
   "fcda>64a.62c,64a.62d,64a.62e,64a.645,64a.647,626.645,626.647,628.645,628.647",
   "fce3>62a.645,62a.647,62b.645,62b.647,633.645,633.647,634.645,634.647,643.644",
   "fcec>643.645,644.645,646.645,646.647,64a.645,64a.647,640.64e.651,640.64f.651",
   "fcf4>640.650.651,637.649,637.64a,639.649,639.64a,63a.649,63a.64a,633.649",
   "fcfc>633.64a,634.649,634.64a,62d.649,62d.64a,62c.649,62c.64a,62e.649,62e.64a",
   "fd05>635.649,635.64a,636.649,636.64a,634.62c,634.62d,634.62e,634.645,634.631",
   "fd0e>633.631,635.631,636.631,637.649,637.64a,639.649,639.64a,63a.649,63a.64a",
   "fd17>633.649,633.64a,634.649,634.64a,62d.649,62d.64a,62c.649,62c.64a,62e.649",
   "fd20>62e.64a,635.649,635.64a,636.649,636.64a,634.62c,634.62d,634.62e,634.645",
   "fd29>634.631,633.631,635.631,636.631,634.62c,634.62d,634.62e,634.645,633.647",
   "fd32>634.647,637.645,633.62c,633.62d,633.62e,634.62c,634.62d,634.62e,637.645",
   "fd3b>638.645,627.64b,627.64b",
   "fd50>62a.62c.645,62a.62d.62c,62a.62d.62c,62a.62d.645,62a.62e.645,62a.645.62c",
   "fd56>62a.645.62d,62a.645.62e,62c.645.62d,62c.645.62d,62d.645.64a,62d.645.649",
   "fd5c>633.62d.62c,633.62c.62d,633.62c.649,633.645.62d,633.645.62d,633.645.62c",
   "fd62>633.645.645,633.645.645,635.62d.62d,635.62d.62d,635.645.645,634.62d.645",
   "fd68>634.62d.645,634.62c.64a,634.645.62e,634.645.62e,634.645.645,634.645.645",
   "fd6e>636.62d.649,636.62e.645,636.62e.645,637.645.62d,637.645.62d,637.645.645",
   "fd74>637.645.64a,639.62c.645,639.645.645,639.645.645,639.645.649,63a.645.645",
   "fd7a>63a.645.64a,63a.645.649,641.62e.645,641.62e.645,642.645.62d,642.645.645",
   "fd80>644.62d.645,644.62d.64a,644.62d.649,644.62c.62c,644.62c.62c,644.62e.645",
   "fd86>644.62e.645,644.645.62d,644.645.62d,645.62d.62c,645.62d.645,645.62d.64a",
   "fd8c>645.62c.62d,645.62c.645,645.62e.62c,645.62e.645",
   "fd92>645.62c.62e,647.645.62c,647.645.645,646.62d.645,646.62d.649,646.62c.645",
   "fd98>646.62c.645,646.62c.649,646.645.64a,646.645.649,64a.645.645,64a.645.645",
   "fd9e>628.62e.64a,62a.62c.64a,62a.62c.649,62a.62e.64a,62a.62e.649,62a.645.64a",
   "fda4>62a.645.649,62c.645.64a,62c.62d.649,62c.645.649,633.62e.649,635.62d.64a",
   "fdaa>634.62d.64a,636.62d.64a,644.62c.64a,644.645.64a,64a.62d.64a,64a.62c.64a",
   "fdb0>64a.645.64a,645.645.64a,642.645.64a,646.62d.64a,642.645.62d,644.62d.645",
   "fdb6>639.645.64a,643.645.64a,646.62c.62d,645.62e.64a,644.62c.645,643.645.645",
   "fdbc>644.62c.645,646.62c.62d,62c.62d.64a,62d.62c.64a,645.62c.64a,641.645.64a",
   "fdc2>628.62d.64a,643.645.645,639.62c.645,635.645.645,633.62e.64a,646.62c.64a",
   "fdf0>635.644.6d2,642.644.6d2,627.644.644.647,627.643.628.631,645.62d.645.62f",
   "fdf5>635.644.639.645,631.633.648.644,639.644.64a.647,648.633.644.645 fdf9>635.644.649",
   "fdfa>635.644.649.20.627.644.644.647.20.639.644.64a.647.20.648.633.644.645",
   "fdfb>62c.644.20.62c.644.627.644.647,631.6cc.627.644 fe10>2c,3001 fe13>3a,3b,21,3f,3016,3017",
   "fe31>2014,2013,5f,5f,28,29,7b,7d,3014,3015,3010,3011,300a,300b,3008,3009 fe41-fe44>300c",
   "fe47>5b,5d,20.305,20.305,20.305,20.305,5f,5f,5f,2c,3001",
   "fe54>3b,3a,3f,21,2014,28,29,7b,7d,3014,3015,23,26,2a,2b,2d,3c,3e,3d fe68>5c,24,25,40",
   "fe70>20.64b,640.64b,20.64c fe74>20.64d",
   "fe76>20.64e,640.64e,20.64f,640.64f,20.650,640.650,20.651,640.651,20.652,640.652",
   "fe80>621,622,622,623,623,624,624,625,625,626,626,626,626,627,627,628,628,628",
   "fe92>628,629,629,62a,62a,62a,62a,62b,62b,62b,62b,62c,62c,62c,62c,62d,62d,62d",
   "fea4>62d,62e,62e,62e,62e,62f,62f,630,630,631,631,632,632,633,633,633,633,634",
   "feb6>634,634,634,635,635,635,635,636,636,636,636,637,637,637,637,638,638,638",
   "fec8>638,639,639,639,639,63a,63a,63a,63a,641,641,641,641,642,642,642,642,643",
   "feda>643,643,643,644,644,644,644,645,645,645,645,646,646,646,646,647,647,647",
   "feec>647,648,648,649,649,64a,64a,64a,64a,644.622,644.622,644.623,644.623",
   "fef9>644.625,644.625,644.627,644.627 ff01-ff20>21 ff21-ff3a>61 ff3b-ff5e>5b",
   "ff5f>2985,2986,2e,300c,300d,3001,30fb,30f2,30a1,30a3,30a5,30a7,30a9,30e3,30e5",
   "ff6e>30e7,30c3,30fc,30a2,30a4,30a6,30a8,30aa,30ab,30ad,30af,30b1,30b3,30b5,30b7",
   "ff7d>30b9,30bb,30bd,30bf,30c1,30c4,30c6,30c8 ff85-ff8a>30ca ff8b>30d2,30d5,30d8,30db",
   "ff8f-ff93>30de ff94>30e4,30e6 ff96-ff9b>30e8 ff9c>30ef,30f3,3099,309a",
   "ffa1>1100,1101,11aa,1102,11ac,11ad ffa7-ffa9>1103 ffaa-ffaf>11b0 ffb0>111a ffb1-ffb3>1106",
   "ffb4>1121 ffb5-ffbe>1109 ffc2-ffc7>1161 ffca-ffcf>1167 ffd2-ffd7>116d ffda-ffdc>1173",
   "ffe0>a2,a3,ac,20.304,a6,a5,20a9 ffe8>2502 ffe9-ffec>2190 ffed>25a0,25cb 10400-10427>10428",
   "104b0-104d3>104d8 10570-1057a>10597 1057c-1058a>105a3 1058c-10592>105b3 10594>105bb,105bc",
   "10781>2d0,2d1,e6,299,253",
   "10787>2a3,ab66,2a5,2a4,256,257,1d91,258,25e,2a9,264,262,260,29b,127,29c,267,284",
   "10799>2aa,2ab,26c,1df04,a78e,26e,1df05,28e,1df06,f8,276,277,71,27a,1df08,27d",
   "107a9>27e,280,2a8,2a6,ab67,2a7,288,2c71 107b2>28f,2a1,2a2,298 107b6-107b8>1c0",
   "107b9>1df0a,1df1e 10c80-10cb2>10cc0 10d50-10d65>10d70 118a0-118bf>118c0 16e40-16e5f>16e60",
   "16ea0-16eb8>16ebb 1ccd6-1ccef>61 1ccf0-1ccf9>30 1d400-1d419>61 1d41a-1d433>61 1d434-1d44d>61",
   "1d44e-1d454>61 1d456-1d467>69 1d468-1d481>61 1d482-1d49b>61 1d49c>61 1d49e>63,64 1d4a2>67",
   "1d4a5>6a,6b 1d4a9-1d4ac>6e 1d4ae-1d4b5>73 1d4b6-1d4b9>61 1d4bb>66 1d4bd-1d4c3>68",
   "1d4c5-1d4cf>70 1d4d0-1d4e9>61 1d4ea-1d503>61 1d504>61,62 1d507-1d50a>64 1d50d-1d514>6a",
   "1d516-1d51c>73 1d51e-1d537>61 1d538>61,62 1d53b-1d53e>64 1d540-1d544>69 1d546>6f",
   "1d54a-1d550>73 1d552-1d56b>61 1d56c-1d585>61 1d586-1d59f>61 1d5a0-1d5b9>61 1d5ba-1d5d3>61",
   "1d5d4-1d5ed>61 1d5ee-1d607>61 1d608-1d621>61 1d622-1d63b>61 1d63c-1d655>61 1d656-1d66f>61",
   "1d670-1d689>61 1d68a-1d6a3>61 1d6a4>131,237 1d6a8-1d6b8>3b1 1d6b9>3b8 1d6ba-1d6c0>3c3",
   "1d6c1>2207 1d6c2-1d6d2>3b1 1d6d3>3c3 1d6d4-1d6da>3c3 1d6db>2202,3b5,3b8,3ba,3c6,3c1,3c0",
   "1d6e2-1d6f2>3b1 1d6f3>3b8 1d6f4-1d6fa>3c3 1d6fb>2207 1d6fc-1d70c>3b1 1d70d>3c3 1d70e-1d714>3c3",
   "1d715>2202,3b5,3b8,3ba,3c6,3c1,3c0 1d71c-1d72c>3b1 1d72d>3b8 1d72e-1d734>3c3 1d735>2207",
   "1d736-1d746>3b1 1d747>3c3 1d748-1d74e>3c3 1d74f>2202,3b5,3b8,3ba,3c6,3c1,3c0 1d756-1d766>3b1",
   "1d767>3b8 1d768-1d76e>3c3 1d76f>2207 1d770-1d780>3b1 1d781>3c3 1d782-1d788>3c3",
   "1d789>2202,3b5,3b8,3ba,3c6,3c1,3c0 1d790-1d7a0>3b1 1d7a1>3b8 1d7a2-1d7a8>3c3 1d7a9>2207",
   "1d7aa-1d7ba>3b1 1d7bb>3c3 1d7bc-1d7c2>3c3 1d7c3>2202,3b5,3b8,3ba,3c6,3c1,3c0,3dd,3dd",
   "1d7ce-1d7d7>30 1d7d8-1d7e1>30 1d7e2-1d7eb>30 1d7ec-1d7f5>30 1d7f6-1d7ff>30 1e030-1e038>430",
   "1e039-1e03b>43a 1e03c-1e046>43e 1e047>44b,44d,44e,a689,4d9,456,458,4e9,4af,4cf 1e051-1e059>430",
   "1e05a>43a,43b,43e,43f,441 1e05f-1e064>443 1e065>44a,44b,491,456,455,45f,4ab,a651,4b1",
   "1e900-1e921>1e922 1ee00>627,628,62c,62f 1ee05>648,632,62d,637,64a 1ee0a-1ee0d>643",
   "1ee0e>633,639,641,635,642,631,634,62a,62b,62e,630,636,638,63a,66e,6ba,6a1,66f 1ee21>628,62c",
   "1ee24>647 1ee27>62d 1ee29>64a 1ee2a-1ee2d>643 1ee2e>633,639,641,635,642 1ee34>634,62a,62b,62e",
   "1ee39>636 1ee3b>63a 1ee42>62c 1ee47>62d 1ee49>64a 1ee4b>644 1ee4d>646,633,639 1ee51>635,642",
   "1ee54>634 1ee57>62e 1ee59>636 1ee5b>63a 1ee5d>6ba 1ee5f>66f 1ee61>628,62c 1ee64>647",
   "1ee67>62d,637,64a,643 1ee6c>645,646,633,639,641,635,642 1ee74>634,62a,62b,62e",
   "1ee79>636,638,63a,66e 1ee7e>6a1 1ee80>627,628,62c,62f,647,648,632,62d,637,64a 1ee8b-1ee8d>644",
   "1ee8e>633,639,641,635,642,631,634,62a,62b,62e,630,636,638,63a 1eea1>628,62c,62f",
   "1eea5>648,632,62d,637,64a 1eeab-1eead>644",
   "1eeae>633,639,641,635,642,631,634,62a,62b,62e,630,636,638,63a",
   "1f101>30.2c,31.2c,32.2c,33.2c,34.2c,35.2c,36.2c,37.2c,38.2c,39.2c",
   "1f110>28.61.29,28.62.29,28.63.29,28.64.29,28.65.29,28.66.29,28.67.29,28.68.29",
   "1f118>28.69.29,28.6a.29,28.6b.29,28.6c.29,28.6d.29,28.6e.29,28.6f.29,28.70.29",
   "1f120>28.71.29,28.72.29,28.73.29,28.74.29,28.75.29,28.76.29,28.77.29,28.78.29",
   "1f128>28.79.29,28.7a.29,3014.73.3015,63,72,63.64,77.7a 1f130-1f149>61",
   "1f14a>68.76,6d.76,73.64,73.73,70.70.76,77.63 1f16a>6d.63,6d.64,6d.72 1f190>64.6a",
   "1f200>307b.304b,30b3.30b3,30b5",
   "1f210>624b,5b57,53cc,30c7,4e8c,591a,89e3,5929,4ea4,6620,7121,6599,524d,5f8c",
   "1f21e>518d,65b0,521d,7d42,751f,8ca9,58f0,5439,6f14,6295,6355,4e00,4e09,904a",
   "1f22c>5de6,4e2d,53f3,6307,8d70,6253,7981,7a7a,5408,6e80,6709,6708,7533,5272 1f23a>55b6,914d",
   "1f240>3014.672c.3015,3014.4e09.3015,3014.4e8c.3015,3014.5b89.3015",
   "1f244>3014.70b9.3015,3014.6253.3015,3014.76d7.3015,3014.52dd.3015 1f248>3014.6557.3015",
   "1f250>5f97,53ef 1fbf0-1fbf9>30"]

/-- The characters that are dropped. -/
def dropped : CodeSet := .ofLines
  ["ad 34f 115f-1160 17b4-17b5 180b-180f 200b 2060-2064 206a-206f 3164 fe00-fe0f feff ffa0",
   "1bca0-1bca3 1d173-1d17a e0100-e01ef"]

/-- The visible characters that have no place in a domain. -/
def excluded : CodeSet := .ofLines
  ["2024-2026 2488-249b 2ff0-2fff 31ef 33c2 33c7 33d8 fe12 fe19 fe30 fe52 fffc-fffd 1f100"]

/-- A character as it is compared. -/
def mapChar (c : Char) : List Char :=
  if c.toNat < 0x80 then [c.toLower]
  else if dropped.contains c then []
  else match variants.image? c.toNat with
    | some image => image.map Char.ofNat
    | none => [c]

/-- A text as it is compared. -/
def fold (s : List Char) : List Char := Normal.composed (s.flatMap mapChar)

/-- The two joiners: the one that separates and the one that joins. -/
def isJoiner (c : Char) : Bool := c.toNat == 0x200c || c.toNat == 0x200d

/-- Whether a character that is compared may stand in a domain, as far as it is beyond ASCII. -/
def isAllowed (c : Char) : Bool :=
  c.toNat < 0x80 || isJoiner c || !(isUnseen c || excluded.contains c)

end ApiClient.Domain
